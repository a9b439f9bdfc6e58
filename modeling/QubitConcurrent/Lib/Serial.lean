import Mathlib.Data.List.Induction
import QubitConcurrent.Lib.Stories

/-!
# Sections of a lock, one beside or after the other

Those who use a lock enter, do something to what it protects, and leave. Some share the lock with
others and change nothing; some have it for themselves. A log of what they did is serial if nobody
enters beside one who excludes him, and if whatever is done is done inside, to what those before
have left behind (`QubitConcurrent.Serial`).

From this alone it follows that a section is not broken into: while somebody has the lock for
himself nobody else is heard of, and while somebody shares it nothing changes
(`QubitConcurrent.Serial.unbroken`).
-/

namespace QubitConcurrent

/-- How a lock is held. -/
inductive Hold
  /-- Beside others who share it. -/
  | shared
  /-- By one alone. -/
  | exclusive
  deriving DecidableEq, Repr

/-- Whether one who asks for a lock in this way can have it, where others hold it. -/
def Hold.Admitted (hold : Hold) (held : ℕ → Option Hold) : Prop :=
  match hold with
  | shared => ∀ k, held k ≠ some exclusive
  | exclusive => ∀ k, held k = none

/-- What is written down of one who uses a lock. -/
inductive Mark (δ : Type)
  /-- It takes the lock. -/
  | entered (hold : Hold)
  /-- It does something inside. -/
  | did (deed : δ)
  /-- It gives the lock back. -/
  | left
  deriving DecidableEq

variable {σ δ : Type} {does : δ → σ → σ → Prop} {first state : σ}
  {log : List (Option ℕ × Mark δ)} {held : ℕ → Option Hold} {k : ℕ} {hold : Hold}

/-- **The serial logs**, with who holds the lock after them, and what it protects then. -/
inductive Serial (does : δ → σ → σ → Prop) (first : σ) :
    List (Option ℕ × Mark δ) → (ℕ → Option Hold) → σ → Prop
  /-- Nothing has happened. -/
  | nil : Serial does first [] (fun _ => none) first
  /-- Somebody enters, if those inside admit him. -/
  | enter {log : List (Option ℕ × Mark δ)} {held : ℕ → Option Hold} {state : σ} (k : ℕ)
      (hold : Hold) (h : Serial does first log held state) (hout : held k = none)
      (hadmitted : hold.Admitted held) :
      Serial does first (log ++ [(some k, .entered hold)]) (Function.update held k (some hold))
        state
  /-- Somebody inside does something, and changes nothing if he shares the lock. -/
  | act {log : List (Option ℕ × Mark δ)} {held : ℕ → Option Hold} {state state' : σ} (k : ℕ)
      (hold : Hold) (deed : δ) (h : Serial does first log held state) (hin : held k = some hold)
      (hdoes : does deed state state') (hshared : hold = .shared → state' = state) :
      Serial does first (log ++ [(some k, .did deed)]) held state'
  /-- Somebody inside leaves. -/
  | leave {log : List (Option ℕ × Mark δ)} {held : ℕ → Option Hold} {state : σ} (k : ℕ)
      (hold : Hold) (h : Serial does first log held state) (hin : held k = some hold) :
      Serial does first (log ++ [(some k, .left)]) (Function.update held k none) state

namespace Serial

/-- **Who has a lock for himself is alone.** -/
theorem alone (h : Serial does first log held state) (hk : held k = some .exclusive) {j : ℕ}
    (hj : held j = some hold) : j = k := by
  induction h generalizing k j hold with
  | nil => cases hk
  | @enter log held state i hold' h hout hadmitted ih =>
    rcases eq_or_ne k i with rfl | hki
    · -- the one that enters for himself finds nobody inside
      obtain rfl : hold' = .exclusive := by simpa using hk
      by_contra hne
      rw [Function.update_of_ne hne, hadmitted j] at hj
      cases hj
    · rw [Function.update_of_ne hki] at hk
      rcases eq_or_ne j i with rfl | hji
      · -- nobody enters beside one that is inside for himself
        cases hold' with
        | shared => exact absurd hk (hadmitted k)
        | exclusive => exact absurd (hk.symm.trans (hadmitted k)) (by simp)
      · rw [Function.update_of_ne hji] at hj
        exact ih hk hj
  | act i hold' deed h hin hdoes hshared ih => exact ih hk hj
  | @leave log held state i hold' h hin ih =>
    rcases eq_or_ne k i with rfl | hki
    · simp at hk
    · rw [Function.update_of_ne hki] at hk
      rcases eq_or_ne j i with rfl | hji
      · simp at hj
      · rw [Function.update_of_ne hji] at hj
        exact ih hk hj

/-- **A section is not broken into.** From where somebody has entered and as long as he does not
leave, he is inside. If he has the lock for himself, nobody else is heard of; and if he shares it,
what it protects is what it was when he entered. -/
theorem unbroken (h : Serial does first log held state) {before after : List (Option ℕ × Mark δ)}
    (heq : log = before ++ (some k, .entered hold) :: after) (hafter : (some k, .left) ∉ after) :
    held k = some hold ∧ (hold = .exclusive → ∀ e ∈ after, e.1 = some k) ∧
      ∃ held₀ state₀, Serial does first before held₀ state₀ ∧
        (hold = .shared → state = state₀) := by
  induction h generalizing after with
  | nil => exact absurd heq.symm (List.append_ne_nil_of_right_ne_nil _ (List.cons_ne_nil _ _))
  | @enter log held state i hold' h hout hadmitted ih =>
    rcases append_singleton_split heq with ⟨rfl, hlast⟩ | ⟨rest, rfl, hold⟩
    · -- he enters now
      obtain ⟨hi, hmark⟩ := Prod.mk.inj hlast
      obtain rfl := Option.some.inj hi
      obtain rfl := Mark.entered.inj hmark
      obtain rfl : after = [] := by simpa using heq
      exact ⟨Function.update_self .., fun _ e he => absurd he List.not_mem_nil, held, state, h,
        fun _ => rfl⟩
    · obtain ⟨hin, halone, hstate⟩ := ih hold (fun hmem => hafter (List.mem_append_left _ hmem))
      have hne : k ≠ i := by
        rintro rfl
        exact absurd (hin.symm.trans hout) (by simp)
      refine ⟨(Function.update_of_ne hne ..).trans hin, ?_, hstate⟩
      rintro rfl
      cases hold' with
      | shared => exact absurd hin (hadmitted k)
      | exclusive => exact absurd (hin.symm.trans (hadmitted k)) (by simp)
  | @act log held state state' i hold' deed h hin' hdoes hshared ih =>
    rcases append_singleton_split heq with ⟨rfl, hlast⟩ | ⟨rest, rfl, hold⟩
    · exact absurd (Prod.mk.inj hlast).2 (by simp)
    obtain ⟨hin, halone, held₀, state₀, hbefore, hstate⟩ :=
      ih hold (fun hmem => hafter (List.mem_append_left _ hmem))
    refine ⟨hin, ?_, held₀, state₀, hbefore, ?_⟩
    · rintro rfl e he
      rcases List.mem_append.mp he with hrest | hlast
      · exact halone rfl e hrest
      · rw [List.mem_singleton.mp hlast, h.alone hin hin']
    · rintro rfl
      -- whoever acts beside him shares the lock as well
      have hsame : hold' = .shared := by
        cases hold' with
        | shared => rfl
        | exclusive =>
          obtain rfl := h.alone hin' hin
          exact Option.some.inj (hin'.symm.trans hin)
      rw [hshared hsame, hstate rfl]
  | @leave log held state i hold' h hin' ih =>
    rcases append_singleton_split heq with ⟨rfl, hlast⟩ | ⟨rest, rfl, hold⟩
    · exact absurd (Prod.mk.inj hlast).2 (by simp)
    obtain ⟨hin, halone, hstate⟩ := ih hold (fun hmem => hafter (List.mem_append_left _ hmem))
    have hne : k ≠ i := by
      rintro rfl
      exact hafter (List.mem_append_right _ (List.mem_singleton_self _))
    refine ⟨(Function.update_of_ne hne ..).trans hin, ?_, hstate⟩
    rintro rfl
    exact absurd (h.alone hin hin').symm hne

/-- What has happened before the last is serial by itself, -/
theorem of_concat {e : Option ℕ × Mark δ} (h : Serial does first (log ++ [e]) held state) :
    ∃ held₀ state₀, Serial does first log held₀ state₀ := by
  generalize heq : log ++ [e] = log' at h
  cases h with
  | nil => exact absurd heq (List.append_ne_nil_of_right_ne_nil _ (List.cons_ne_nil _ _))
  | enter _ _ h =>
    obtain ⟨rfl, -⟩ := List.append_inj' heq rfl
    exact ⟨_, _, h⟩
  | act _ _ _ h =>
    obtain ⟨rfl, -⟩ := List.append_inj' heq rfl
    exact ⟨_, _, h⟩
  | leave _ _ h =>
    obtain ⟨rfl, -⟩ := List.append_inj' heq rfl
    exact ⟨_, _, h⟩

/-- and so is what has happened first. -/
theorem of_append {before after : List (Option ℕ × Mark δ)}
    (h : Serial does first (before ++ after) held state) :
    ∃ held₀ state₀, Serial does first before held₀ state₀ := by
  induction after using List.reverseRecOn generalizing held state with
  | nil =>
    rw [List.append_nil] at h
    exact ⟨held, state, h⟩
  | append_singleton after e ih =>
    rw [← List.append_assoc] at h
    obtain ⟨held₀, state₀, h₀⟩ := h.of_concat
    exact ih h₀

/-- **No section was ever broken into.** While somebody had the lock for himself nobody else is
heard of, and while somebody shared it nothing changed. -/
theorem undisturbed (h : Serial does first log held state)
    {before during after : List (Option ℕ × Mark δ)}
    (heq : log = before ++ (some k, .entered hold) :: (during ++ after))
    (hduring : (some k, .left) ∉ during) :
    (hold = .exclusive → ∀ e ∈ during, e.1 = some k) ∧ ∃ held₀ held₁ state₀ state₁,
      Serial does first before held₀ state₀ ∧
      Serial does first (before ++ (some k, .entered hold) :: during) held₁ state₁ ∧
      (hold = .shared → state₁ = state₀) := by
  rw [heq, ← List.cons_append, ← List.append_assoc] at h
  obtain ⟨held₁, state₁, h₁⟩ := h.of_append
  obtain ⟨-, halone, held₀, state₀, h₀, hsame⟩ := h₁.unbroken rfl hduring
  exact ⟨halone, held₀, held₁, state₀, state₁, h₀, h₁, hsame⟩

end Serial

/-! ### A lock that nobody shares -/

/-- A lock is held by one for himself, or by nobody. -/
def heldBy (holder : Option ℕ) : ℕ → Option Hold :=
  fun k => if holder = some k then some .exclusive else none

namespace Serial

/-- Somebody enters. -/
theorem enters (h : Serial does first log (heldBy none) state) (k : ℕ) :
    Serial does first (log ++ [(some k, .entered .exclusive)]) (heldBy (some k)) state := by
  have hheld : heldBy (some k) = Function.update (heldBy none) k (some .exclusive) := by
    funext j
    rcases eq_or_ne j k with rfl | hne
    · simp [heldBy]
    · simp [heldBy, hne, hne.symm]
  rw [hheld]
  exact .enter k .exclusive h rfl fun _ => rfl

/-- Who is inside does something. -/
theorem acts (h : Serial does first log (heldBy (some k)) state) {deed : δ} {state' : σ}
    (hdoes : does deed state state') :
    Serial does first (log ++ [(some k, .did deed)]) (heldBy (some k)) state' :=
  .act k .exclusive deed h (if_pos rfl) hdoes nofun

/-- Who is inside leaves. -/
theorem leaves (h : Serial does first log (heldBy (some k)) state) :
    Serial does first (log ++ [(some k, .left)]) (heldBy none) state := by
  have hheld : heldBy none = Function.update (heldBy (some k)) k none := by
    funext j
    rcases eq_or_ne j k with rfl | hne
    · simp [heldBy]
    · simp [heldBy, hne, hne.symm]
  rw [hheld]
  exact .leave k .exclusive h (if_pos rfl)

end Serial

end QubitConcurrent
