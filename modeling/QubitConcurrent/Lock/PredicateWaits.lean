import QubitConcurrent.Lib.Stories
import QubitConcurrent.Lock.Monitor

/-!
# Waits with a time limit are exact

What an invocation of `wait_timeout_while` does is a story of rounds: the predicate is evaluated
and not satisfied, the clock is read, a wait is requested for what is left of the time, and the
mutex is taken again. The last round is cut short, because the predicate is satisfied and the
closure is called, because no time is left, or because one of the closures panics.

The order inside a round is what matters. The clock is read after the evaluation, so that a
round which begins after the deadline does not end in another wait; and the predicate is
evaluated before the time is looked at, so that no wait that is woken late misses a state that
satisfies it. From the evaluation to the end of the round the invocation holds the mutex, so that
the closure is called on the state that was evaluated.
-/

namespace QubitConcurrent

namespace Lock

variable {T P R : Type} {s s' : Monitor T P R} {k : ℕ}

/-! ### What a step is -/

/-- The predicate is satisfied where the loop does not continue waiting. -/
theorem Call.satisfied_eq (c : Call T P R) (p : P) (state : T) :
    c.satisfied p state = (c.arguments.waiting p state).1.map not := by
  cases c with
  | waitTimeoutWhile timeout waiting f => rfl
  | waitTimeoutUntil timeout ready f =>
    simp only [satisfied, arguments, Option.map_map, Function.comp_def, Bool.not_not,
      Option.map_id']

/-- What is left of the time. -/
theorem getD_checkedSub (timeout elapsed : ℕ) :
    (checkedSub timeout elapsed).getD 0 = timeout - elapsed := by
  rw [checkedSub]
  split_ifs with h
  · rfl
  · exact (Nat.sub_eq_zero_of_le (Nat.le_of_not_le h)).symm

/-- **The turn of an invocation**: what becomes of it, of the mutex and of the protected state,
and what is written down. -/
inductive Turn (s : Monitor T P R) (k : ℕ) :
    Invocation T P R → Invocation T P R → Option ℕ → T → Event T R → Prop
  /-- The mutex is taken. -/
  | lock (c : Call T P R) (p : P) (start : ℕ) (h : s.holder = none) :
      Turn s k ⟨c, p, start, .locking⟩ ⟨c, p, start, .starting⟩ (some k) s.state .locked
  /-- The clock is read for the first time. -/
  | start (c : Call T P R) (p : P) (start : ℕ) :
      Turn s k ⟨c, p, start, .starting⟩ ⟨c, p, s.now, .checking⟩ s.holder s.state
        (.started s.now)
  /-- The predicate is satisfied. -/
  | accept (c : Call T P R) (p p' : P) (start : ℕ) :
      Turn s k ⟨c, p, start, .checking⟩ ⟨c, p', start, .accepted⟩ s.holder s.state
        (.evaluated s.now s.state (some true))
  /-- The predicate is not satisfied. -/
  | refuse (c : Call T P R) (p p' : P) (start : ℕ) :
      Turn s k ⟨c, p, start, .checking⟩ ⟨c, p', start, .refused⟩ s.holder s.state
        (.evaluated s.now s.state (some false))
  /-- The predicate panics. -/
  | evaluatePanics (c : Call T P R) (p p' : P) (start : ℕ) :
      Turn s k ⟨c, p, start, .checking⟩ ⟨c, p', start, .unwound⟩ none s.state
        (.evaluated s.now s.state none)
  /-- The closure is called. -/
  | invoke (c : Call T P R) (p : P) (start : ℕ) (value : R) (state' : T) :
      Turn s k ⟨c, p, start, .accepted⟩ ⟨c, p, start, .returned (.ready value)⟩ none state'
        (.invoked s.state (some value) state')
  /-- The closure panics. -/
  | invokePanics (c : Call T P R) (p : P) (start : ℕ) (state' : T) :
      Turn s k ⟨c, p, start, .accepted⟩ ⟨c, p, start, .unwound⟩ none state'
        (.invoked s.state none state')
  /-- The clock is read again. -/
  | read (c : Call T P R) (p : P) (start : ℕ) :
      Turn s k ⟨c, p, start, .refused⟩ ⟨c, p, start, .measured (s.now - start)⟩ s.holder s.state
        (.read s.now)
  /-- No time is left. -/
  | timeOut (c : Call T P R) (p : P) (start elapsed : ℕ) (h : c.arguments.timeout ≤ elapsed) :
      Turn s k ⟨c, p, start, .measured elapsed⟩ ⟨c, p, start, .returned .timedOut⟩ none s.state
        (.timedOut s.state)
  /-- Some time is left. -/
  | wait (c : Call T P R) (p : P) (start elapsed : ℕ) (h : elapsed < c.arguments.timeout) :
      Turn s k ⟨c, p, start, .measured elapsed⟩
        ⟨c, p, start, .waiting (c.arguments.timeout - elapsed)⟩ none s.state
        (.waited (c.arguments.timeout - elapsed))
  /-- The mutex is taken again. -/
  | relock (c : Call T P R) (p : P) (start : ℕ) (status : WaitTimeoutStatus)
      (h : s.holder = none) :
      Turn s k ⟨c, p, start, .woken status⟩ ⟨c, p, start, .checking⟩ (some k) s.state .locked

/-- **What the step of an invocation is**: its turn, and it is written down as such. -/
theorem next_cases (hnext : s.next k = some s') :
    ∃ i i' holder' state' e, s.invocations[k]? = some i ∧ Turn s k i i' holder' state' e ∧
      s' = { s with state := state', holder := holder', invocations := s.invocations.set k i' } ∧
      watch s (.next k) s' = [(some k, e)] := by
  rw [Monitor.next] at hnext
  split at hnext
  · next c p start hk =>
    rw [Monitor.lock] at hnext
    split_ifs at hnext with hfree
    obtain rfl := Option.some.inj hnext
    exact ⟨_, _, _, _, _, hk, .lock c p start hfree, rfl, by simp [watch, hk, Invocation.event]⟩
  · next c p start hk =>
    obtain rfl := Option.some.inj hnext
    exact ⟨_, _, _, _, _, hk, .start c p start, rfl, by simp [watch, hk, Invocation.event]⟩
  · next c p start hk =>
    have hsatisfied := c.satisfied_eq p s.state
    split at hnext
    · next p' hwaiting =>
      obtain rfl := Option.some.inj hnext
      rw [hwaiting] at hsatisfied
      exact ⟨_, _, _, _, _, hk, .accept c p p' start, rfl,
        by simp [watch, hk, Invocation.event, hsatisfied]⟩
    · next p' hwaiting =>
      obtain rfl := Option.some.inj hnext
      rw [hwaiting] at hsatisfied
      exact ⟨_, _, _, _, _, hk, .refuse c p p' start, rfl,
        by simp [watch, hk, Invocation.event, hsatisfied]⟩
    · next p' hwaiting =>
      obtain rfl := Option.some.inj hnext
      rw [hwaiting] at hsatisfied
      exact ⟨_, _, _, _, _, hk, .evaluatePanics c p p' start, rfl,
        by simp [watch, hk, Invocation.event, hsatisfied]⟩
  · next c p start hk =>
    split at hnext
    · next value state' hf =>
      obtain rfl := Option.some.inj hnext
      exact ⟨_, _, _, _, _, hk, .invoke c p start value state', rfl,
        by simp [watch, hk, Invocation.event, hf]⟩
    · next state' hf =>
      obtain rfl := Option.some.inj hnext
      exact ⟨_, _, _, _, _, hk, .invokePanics c p start state', rfl,
        by simp [watch, hk, Invocation.event, hf]⟩
  · next c p start hk =>
    obtain rfl := Option.some.inj hnext
    exact ⟨_, _, _, _, _, hk, .read c p start, rfl, by simp [watch, hk, Invocation.event]⟩
  · next c p start elapsed hk =>
    simp only [getD_checkedSub] at hnext
    split_ifs at hnext with hzero
    · obtain rfl := Option.some.inj hnext
      refine ⟨_, _, _, _, _, hk, .timeOut c p start elapsed (by omega), rfl, ?_⟩
      simp [watch, hk, Invocation.event, Monitor.unlock, Monitor.set, getElem?_set_of_some hk]
    · obtain rfl := Option.some.inj hnext
      refine ⟨_, _, _, _, _, hk, .wait c p start elapsed (by omega), rfl, ?_⟩
      simp [watch, hk, Invocation.event, Monitor.unlock, Monitor.set, getElem?_set_of_some hk]
  · next c p start status hk =>
    rw [Monitor.lock] at hnext
    split_ifs at hnext with hfree
    obtain rfl := Option.some.inj hnext
    exact ⟨_, _, _, _, _, hk, .relock c p start status hfree, rfl,
      by simp [watch, hk, Invocation.event]⟩
  · cases hnext

/-- **What a step is.** -/
theorem step_cases {a : Action T P R} (hstep : s.step a = some s') :
    (∃ c p, a = .call c p ∧
      s' = { s with invocations := s.invocations ++ [⟨c, p, 0, .locking⟩] }) ∨
    (∃ k, a = .next k ∧ s.next k = some s') ∨
    (∃ k c p start remaining status, a = .wake k status ∧
      s.invocations[k]? = some ⟨c, p, start, .waiting remaining⟩ ∧
      s' = s.set k ⟨c, p, start, .woken status⟩) ∨
    (∃ k p i, a = .influence k p ∧ s.invocations[k]? = some i ∧
      s' = s.set k { i with captures := p }) ∨
    (∃ state, a = .write state ∧ s.holder = none ∧ s' = { s with state := state }) ∨
    (∃ time, a = .tick time ∧ s' = { s with now := s.now + time }) := by
  cases a with
  | call c p => exact Or.inl ⟨c, p, rfl, (Option.some.inj hstep).symm⟩
  | next k => exact Or.inr (Or.inl ⟨k, rfl, hstep⟩)
  | wake k status =>
    simp only [Monitor.step, Monitor.wake] at hstep
    split at hstep
    · next c p start remaining hk =>
      exact Or.inr (Or.inr (Or.inl ⟨k, c, p, start, remaining, status, rfl, hk,
        (Option.some.inj hstep).symm⟩))
    · cases hstep
  | influence k p =>
    obtain ⟨i, hk, rfl⟩ := Option.map_eq_some_iff.mp hstep
    exact Or.inr (Or.inr (Or.inr (Or.inl ⟨k, p, i, rfl, hk, rfl⟩)))
  | write state =>
    simp only [Monitor.step, Monitor.write] at hstep
    split_ifs at hstep with hfree
    exact Or.inr (Or.inr (Or.inr (Or.inr (Or.inl ⟨state, rfl, hfree,
      (Option.some.inj hstep).symm⟩))))
  | tick time =>
    exact Or.inr (Or.inr (Or.inr (Or.inr (Or.inr ⟨time, rfl, (Option.some.inj hstep).symm⟩))))

/-! ### Who is inside the critical section -/

/-- Whether an invocation is inside a critical section. -/
def Monitor.inside (s : Monitor T P R) : ℕ → Bool :=
  fun j => (s.invocations[j]?).any fun i => i.phase.isCritical

/-- **Mutual exclusion**: whoever is inside a critical section is the holder of the mutex. -/
def Monitor.Exclusive (s : Monitor T P R) : Prop := ∀ j, s.inside j = true ↔ s.holder = some j

/-- An invocation is replaced. -/
theorem Monitor.inside_of_set {i i' : Invocation T P R} (hk : s.invocations[k]? = some i)
    (hs' : s'.invocations = s.invocations.set k i') :
    s'.inside = Function.update s.inside k i'.phase.isCritical := by
  unfold inside
  rw [hs']
  exact any_getElem?_set hk _ _

/-- Whoever takes a turn can, and is inside after it as the holder of the mutex, or not at
all. -/
theorem Turn.holder {i i' : Invocation T P R} {holder' : Option ℕ} {state' : T} {e : Event T R}
    (h : Turn s k i i' holder' state' e) :
    (i.phase.isCritical = true ∨ s.holder = none ∧ state' = s.state) ∧
      holder' = if i'.phase.isCritical then
        if i.phase.isCritical then s.holder else some k else none := by
  cases h with
  | lock c p start h | relock c p start status h => exact ⟨Or.inr ⟨h, rfl⟩, rfl⟩
  | _ => exact ⟨Or.inl rfl, rfl⟩

/-- An invocation that is inside keeps others out. -/
theorem Monitor.Exclusive.holder_ne (h : s.Exclusive) {i i' : Invocation T P R}
    {holder' : Option ℕ} {state' : T} {e : Event T R} (hk : s.invocations[k]? = some i)
    (hturn : Turn s k i i' holder' state' e) {j : ℕ} (hne : j ≠ k) (hstate : state' ≠ s.state) :
    s.inside j = false := by
  rcases hturn.holder.1 with hinside | ⟨-, heq⟩
  · have hholder : s.holder = some k := (h k).mp (by rw [inside, hk, Option.any_some, hinside])
    refine Bool.eq_false_iff.mpr fun hj => hne ?_
    exact (Option.some.inj (hholder.symm.trans ((h j).mp hj))).symm
  · exact absurd heq hstate

/-- Every step keeps mutual exclusion. -/
theorem Monitor.Exclusive.step (h : s.Exclusive) {a : Action T P R}
    (hstep : s.step a = some s') : s'.Exclusive := by
  -- what moves without entering or leaving changes nothing
  have hset : ∀ {k : ℕ} {i i' : Invocation T P R}, s.invocations[k]? = some i →
      i'.phase.isCritical = i.phase.isCritical → (s.set k i').Exclusive := by
    intro k i i' hk hsame
    have hinside : (s.set k i').inside = s.inside := by
      rw [inside_of_set hk rfl, hsame, Function.update_eq_self_iff, inside, hk, Option.any_some]
    intro j
    rw [hinside]
    exact h j
  rcases step_cases hstep with ⟨c, p, -, rfl⟩ | ⟨k, -, hnext⟩ |
    ⟨k, c, p, start, remaining, status, -, hk, rfl⟩ | ⟨k, p, i, -, hk, rfl⟩ |
    ⟨state, -, -, rfl⟩ | ⟨time, -, rfl⟩
  · intro j
    have hinside := congrFun (any_getElem?_append (l := s.invocations)
      (p := fun i => i.phase.isCritical) (b := ⟨c, p, 0, .locking⟩) rfl) j
    exact (iff_of_eq (congrArg (· = true) hinside)).trans (h j)
  · obtain ⟨i, i', holder', state', e, hk, hturn, hs', -⟩ := next_cases hnext
    have hcritical : s.inside k = i.phase.isCritical := by rw [inside, hk, Option.any_some]
    have hholder := hturn.holder
    intro j
    rw [inside_of_set hk (by rw [hs']), hs']
    simp only
    rw [hholder.2]
    rcases eq_or_ne j k with rfl | hne
    · -- the one that moves is inside after it as the holder, or gives the mutex back
      rw [Function.update_self]
      have hj := h j
      rw [hcritical] at hj
      cases hafter : i'.phase.isCritical with
      | true =>
        cases hinside : i.phase.isCritical with
        | true => simpa [hinside] using hj
        | false => simp
      | false => simp
    · rw [Function.update_of_ne hne, h j]
      have hnot : s.holder ≠ some j := by
        rcases hholder.1 with hinside | ⟨hfree, -⟩
        · rw [(h k).mp (hcritical.trans hinside)]
          simpa using hne.symm
        · simp [hfree]
      split_ifs
      · rfl
      · simpa [hnot] using hne.symm
      · simp [hnot]
  · exact hset hk rfl
  · exact hset hk rfl
  · exact h
  · exact h

/-! ### The story of an invocation -/

/-- The rounds that have ended in a wait: the predicate was not satisfied, and some time was
left. -/
inductive Rounds (timeout start : ℕ) : List (Event T R) → Prop
  /-- No round yet. -/
  | nil : Rounds timeout start []
  /-- One more round. -/
  | snoc {es : List (Event T R)} (h : Rounds timeout start es) {now now' remaining : ℕ}
      (state : T) (hle : now ≤ now') (hleft : now' - start < timeout)
      (hremaining : remaining = timeout - (now' - start)) :
      Rounds timeout start (es ++ [.evaluated now state (some false), .read now',
        .waited remaining, .locked])

/-- What has happened in the last round, up to a phase. Inside the critical section the state
that was evaluated is still there. -/
inductive Tail (timeout start : ℕ) (current : T) (clock : ℕ) :
    Phase R → List (Event T R) → Prop
  | checking : Tail timeout start current clock .checking []
  | accepted (now : ℕ) :
      Tail timeout start current clock .accepted [.evaluated now current (some true)]
  | refused {now : ℕ} (hle : now ≤ clock) :
      Tail timeout start current clock .refused [.evaluated now current (some false)]
  | measured {now now' elapsed : ℕ} (hle : now ≤ now') (helapsed : elapsed = now' - start) :
      Tail timeout start current clock (.measured elapsed)
        [.evaluated now current (some false), .read now']
  | waiting {now now' remaining : ℕ} (state : T) (hle : now ≤ now')
      (hleft : now' - start < timeout) (hremaining : remaining = timeout - (now' - start)) :
      Tail timeout start current clock (.waiting remaining)
        [.evaluated now state (some false), .read now', .waited remaining]
  | woken {now now' remaining : ℕ} (state : T) (status : WaitTimeoutStatus) (hle : now ≤ now')
      (hleft : now' - start < timeout) (hremaining : remaining = timeout - (now' - start)) :
      Tail timeout start current clock (.woken status)
        [.evaluated now state (some false), .read now', .waited remaining]
  | ready (now : ℕ) (state state' : T) (value : R) :
      Tail timeout start current clock (.returned (.ready value))
        [.evaluated now state (some true), .invoked state (some value) state']
  | timedOut {now now' : ℕ} (state : T) (hle : now ≤ now') (hleft : timeout ≤ now' - start) :
      Tail timeout start current clock (.returned .timedOut)
        [.evaluated now state (some false), .read now', .timedOut state]
  | evaluatePanicked (now : ℕ) (state : T) :
      Tail timeout start current clock .unwound [.evaluated now state none]
  | invokePanicked (now : ℕ) (state state' : T) :
      Tail timeout start current clock .unwound
        [.evaluated now state (some true), .invoked state none state']

/-- **The story of an invocation so far.** -/
inductive Told (s : Monitor T P R) : Invocation T P R → List (Event T R) → Prop
  /-- It has not begun. -/
  | locking (c : Call T P R) (p : P) (start : ℕ) : Told s ⟨c, p, start, .locking⟩ []
  /-- It has taken the mutex. -/
  | starting (c : Call T P R) (p : P) (start : ℕ) : Told s ⟨c, p, start, .starting⟩ [.locked]
  /-- It goes round its loop. -/
  | round (i : Invocation T P R) {rounds tail : List (Event T R)}
      (hrounds : Rounds i.timeout i.start rounds)
      (htail : Tail i.timeout i.start s.state s.now i.phase tail) :
      Told s i (.locked :: .started i.start :: (rounds ++ tail))

/-- **An invocation goes on with its story.** -/
theorem Told.turn {i i' : Invocation T P R} {holder' : Option ℕ} {state' : T} {e : Event T R}
    {es : List (Event T R)} (hes : Told s i es) (h : Turn s k i i' holder' state' e) (ts : List _) :
    Told { s with state := state', holder := holder', invocations := ts } i' (es ++ [e]) := by
  have happend : ∀ {start : ℕ} {rounds tail : List (Event T R)},
      (.locked :: .started start :: (rounds ++ tail)) ++ [e] =
        .locked :: .started start :: (rounds ++ (tail ++ [e])) := by
    simp
  cases h with
  | lock c p start =>
    cases hes with
    | locking => exact .starting c p start
    | round _ _ htail => cases htail
  | start c p start =>
    cases hes with
    | starting => exact .round ⟨c, p, s.now, .checking⟩ .nil .checking
    | round _ _ htail => cases htail
  | accept c p p' start =>
    cases hes with
    | round _ hrounds htail =>
      cases htail
      rw [happend]
      exact .round ⟨c, p', start, .accepted⟩ hrounds (.accepted _)
  | refuse c p p' start =>
    cases hes with
    | round _ hrounds htail =>
      cases htail with
      | checking =>
        rw [happend]
        exact .round ⟨c, p', start, .refused⟩ hrounds (.refused le_rfl)
  | evaluatePanics c p p' start =>
    cases hes with
    | round _ hrounds htail =>
      cases htail
      rw [happend]
      exact .round ⟨c, p', start, .unwound⟩ hrounds (.evaluatePanicked _ _)
  | invoke c p start value =>
    cases hes with
    | round _ hrounds htail =>
      cases htail
      rw [happend]
      exact .round ⟨c, p, start, .returned (.ready value)⟩ hrounds (.ready ..)
  | invokePanics c p start =>
    cases hes with
    | round _ hrounds htail =>
      cases htail
      rw [happend]
      exact .round ⟨c, p, start, .unwound⟩ hrounds (.invokePanicked ..)
  | read c p start =>
    cases hes with
    | round _ hrounds htail =>
      cases htail with
      | refused hle =>
        rw [happend]
        exact .round ⟨c, p, start, .measured (s.now - start)⟩ hrounds (.measured hle rfl)
  | timeOut c p start elapsed helapsed =>
    cases hes with
    | round _ hrounds htail =>
      cases htail with
      | measured hle heq =>
        rw [happend]
        exact .round ⟨c, p, start, .returned .timedOut⟩ hrounds (.timedOut _ hle (heq ▸ helapsed))
  | wait c p start elapsed helapsed =>
    cases hes with
    | round _ hrounds htail =>
      cases htail with
      | measured hle heq =>
        rw [happend]
        exact .round ⟨c, p, start, .waiting _⟩ hrounds
          (.waiting _ hle (heq ▸ helapsed) (congrArg _ heq))
  | relock c p start status =>
    cases hes with
    | round _ hrounds htail =>
      cases htail with
      | woken state _ hle hleft hremaining =>
        -- the round is over, and the next one begins with nothing in it
        have hround := hrounds.snoc state hle hleft hremaining
        have hstory : ∀ {start : ℕ} {rounds tail : List (Event T R)},
            (.locked :: .started start :: (rounds ++ tail)) ++ [.locked] =
              .locked :: .started start :: (rounds ++ (tail ++ [.locked]) ++ []) := by
          simp
        rw [hstory]
        exact .round ⟨c, p, start, .checking⟩ hround .checking

/-- **The story of an invocation is kept by what others do**: whoever is inside the critical
section finds the protected state as it was. -/
theorem Told.stays {i : Invocation T P R} {es : List (Event T R)} (hes : Told s i es)
    (hstate : i.phase.isCritical = true → s'.state = s.state) (hnow : s.now ≤ s'.now) :
    Told s' i es := by
  cases hes with
  | locking c p start => exact .locking c p start
  | starting c p start => exact .starting c p start
  | round _ hrounds htail =>
    refine .round i hrounds ?_
    generalize i.phase = phase at htail hstate
    cases htail with
    | checking => exact .checking
    | accepted now => exact hstate rfl ▸ .accepted now
    | refused hle => exact hstate rfl ▸ .refused (hle.trans hnow)
    | measured hle helapsed => exact hstate rfl ▸ .measured hle helapsed
    | waiting state hle hleft hremaining => exact .waiting state hle hleft hremaining
    | woken state status hle hleft hremaining => exact .woken state status hle hleft hremaining
    | ready now state state' value => exact .ready now state state' value
    | timedOut state hle hleft => exact .timedOut state hle hleft
    | evaluatePanicked now state => exact .evaluatePanicked now state
    | invokePanicked now state state' => exact .invokePanicked now state state'

/-- **In every run, every invocation has its story.** -/
theorem storied_step (h : s.Exclusive) {log : List (Option ℕ × Event T R)}
    (hlog : Storied Monitor.invocations Told s log) {a : Action T P R}
    (hstep : s.step a = some s') :
    Storied Monitor.invocations Told s' (log ++ watch s a s') := by
  rcases step_cases hstep with ⟨c, p, rfl, hs'⟩ | ⟨k, rfl, hnext⟩ |
    ⟨k, c, p, start, remaining, status, rfl, hk, hs'⟩ | ⟨k, p, i, rfl, hk, hs'⟩ |
    ⟨state, rfl, hfree, hs'⟩ | ⟨time, rfl, hs'⟩
  · change Storied _ _ _ (log ++ [])
    rw [List.append_nil]
    exact hlog.begins (by rw [hs']) (.locking c p 0) fun j u _ es hes =>
      hes.stays (fun _ => by rw [hs']) (by rw [hs'])
  · -- who takes a turn goes on with its own story, and changes the state only if nobody is inside
    obtain ⟨i, i', holder', state', e, hk, hturn, rfl, hwatch⟩ := next_cases hnext
    rw [hwatch]
    refine hlog.moves [e] hk rfl (fun es hes => hes.turn hturn _) fun j u hne hj es hes => ?_
    refine hes.stays (fun hcritical => ?_) le_rfl
    by_contra hstate
    have hout := h.holder_ne hk hturn hne hstate
    rw [Monitor.inside, hj, Option.any_some, hcritical] at hout
    cases hout
  · refine hlog.moves [] hk (by rw [hs']; rfl) (fun es hes => ?_) fun j u _ _ es hes =>
      hes.stays (fun _ => by rw [hs']; rfl) (by rw [hs']; rfl)
    rw [List.append_nil]
    cases hes with
    | round _ hrounds htail =>
      cases htail with
      | waiting state hle hleft hremaining =>
        exact .round ⟨c, p, start, .woken status⟩ hrounds
          (.woken state status hle hleft hremaining)
  · refine hlog.moves [] hk (by rw [hs']; rfl) (fun es hes => ?_) fun j u _ _ es hes =>
      hes.stays (fun _ => by rw [hs']; rfl) (by rw [hs']; rfl)
    rw [List.append_nil, hs']
    cases hes with
    | locking c p' start => exact .locking c p start
    | starting c p' start => exact .starting c p start
    | round _ hrounds htail => exact .round { i with captures := p } hrounds htail
  · -- another thread writes while the mutex is free
    refine hlog.beside (by rw [hs']) [.wrote state] fun j u hj es hes => ?_
    refine hes.stays (fun hcritical => ?_) (by rw [hs'])
    have hholder := (h j).mp (by rw [Monitor.inside, hj, Option.any_some, hcritical])
    exact absurd (hfree.symm.trans hholder) (by simp)
  · exact hlog.beside (by rw [hs']) [] fun j u _ es hes =>
      hes.stays (fun _ => by rw [hs']) (by rw [hs']; exact Nat.le_add_right ..)

/-! ### What the story tells -/

namespace Event

/-- Whether the closure is called. -/
def isInvoked : Event T R → Bool
  | invoked .. => true
  | _ => false

/-- Whether another round begins, or goes on to its wait. -/
def isGoingOn : Event T R → Bool
  | evaluated .. | waited _ => true
  | _ => false

/-- The state that is left behind, by the closure or by another thread. -/
def left? : Event T R → Option T
  | invoked _ _ state' => some state'
  | wrote state => some state
  | _ => none

end Event

/-- **What is exact of an invocation**, by its story. -/
structure Exact (i : Invocation T P R) (es : List (Event T R)) : Prop where
  /-- The clock is read once for the start, right after the mutex is taken. -/
  begun : es = [] ∨ es = [.locked] ∨
    ∃ rest, es = .locked :: .started i.start :: rest ∧ ∀ now, .started now ∉ rest
  /-- What is returned is `Ready` exactly if the closure was called, -/
  ready : ∀ result, i.phase = .returned result →
    ((∃ value, result = .ready value) ↔ ∃ e ∈ es, e.isInvoked = true)
  /-- and with its value. -/
  value : ∀ value, i.phase = .returned (.ready value) ↔
    ∃ state state', .invoked state (some value) state' ∈ es
  /-- The closure is called at most once, -/
  once : es.countP Event.isInvoked ≤ 1
  /-- on the state on which the predicate was evaluated right before, and satisfied. -/
  satisfied : ∀ state value state', .invoked state value state' ∈ es →
    ∃ before now, es = before ++ [.evaluated now state (some true), .invoked state value state']
  /-- `TimedOut` is returned only right after an evaluation that was not satisfied, and a reading
  of the clock after it by which the time was over; the state is the one that was evaluated, and
  nothing that the invocation has left behind. -/
  timedOut : i.phase = .returned .timedOut → (∀ e ∈ es, e.left? = none) ∧
    ∃ before now now' state, es = before ++
      [.evaluated now state (some false), .read now', .timedOut state] ∧
      now ≤ now' ∧ i.timeout ≤ now' - i.start
  /-- Every wait is requested, after an evaluation that was not satisfied and a reading of the
  clock, for what is left of the time. -/
  waits : ∀ before remaining after, es = before ++ .waited remaining :: after →
    ∃ before' now now' state,
      before = before' ++ [.evaluated now state (some false), .read now'] ∧ now ≤ now' ∧
      remaining = i.timeout - (now' - i.start) ∧ 0 < remaining ∧ remaining ≤ i.timeout
  /-- A round that begins after the deadline is the last. -/
  last : ∀ before now state satisfied after,
    es = before ++ .evaluated now state satisfied :: after → i.start + i.timeout ≤ now →
    ∀ e ∈ after, e.isGoingOn = false

section Told

variable {timeout start : ℕ} {current : T} {clock : ℕ} {phase : Phase R}
  {rounds tail : List (Event T R)}

/-- What there is in the rounds that have ended in a wait. -/
theorem Rounds.mem (h : Rounds timeout start rounds) : ∀ e ∈ rounds, e.isInvoked = false ∧
    e.left? = none ∧ (∀ now, e ≠ .started now) ∧
    ∀ now state satisfied, e = .evaluated now state satisfied → now < start + timeout := by
  induction h with
  | nil => simp
  | snoc h state hle hleft hremaining ih =>
    intro e he
    rcases List.mem_append.mp he with hold | hnew
    · exact ih e hold
    · simp only [List.mem_cons, List.not_mem_nil, or_false] at hnew
      rcases hnew with rfl | rfl | rfl | rfl
      · refine ⟨rfl, rfl, by simp, fun now state satisfied heq => ?_⟩
        cases heq
        omega
      · exact ⟨rfl, rfl, by simp, by simp⟩
      · exact ⟨rfl, rfl, by simp, by simp⟩
      · exact ⟨rfl, rfl, by simp, by simp⟩

/-- A wait is requested for what is left of the time. -/
def Requested (timeout start : ℕ) (before : List (Event T R)) (e : Event T R) : Prop :=
  ∀ remaining, e = .waited remaining → ∃ before' now now' state,
    before = before' ++ [.evaluated now state (some false), .read now'] ∧ now ≤ now' ∧
    remaining = timeout - (now' - start) ∧ 0 < remaining ∧ remaining ≤ timeout

/-- A wait after an evaluation and a reading of the clock is requested for what is left. -/
theorem each_requested {now now' remaining : ℕ} (before : List (Event T R)) (state : T)
    (hle : now ≤ now') (hleft : now' - start < timeout)
    (hremaining : remaining = timeout - (now' - start)) :
    Each (fun before' => Requested timeout start (before ++ before'))
      [.evaluated now state (some false), .read now', .waited remaining] := by
  refine .cons nofun (.cons nofun (.cons ?_ .nil))
  intro remaining' heq
  cases heq
  exact ⟨before, now, now', state, rfl, hle, hremaining, by omega, by omega⟩

/-- The waits of the rounds are requested for what was left of the time. -/
theorem Rounds.requested (h : Rounds timeout start rounds) (before : List (Event T R)) :
    Each (fun before' => Requested timeout start (before ++ before')) rounds := by
  induction h with
  | nil => exact .nil
  | @snoc es h now now' remaining state hle hleft hremaining ih =>
    have hwait := each_requested (before ++ es) state hle hleft hremaining
    simp only [List.append_assoc] at hwait
    exact ih.append (hwait.append (.cons nofun .nil))

/-- So is the wait of the last round. -/
theorem Tail.requested (h : Tail timeout start current clock phase tail)
    (before : List (Event T R)) :
    Each (fun before' => Requested timeout start (before ++ before')) tail := by
  cases h with
  | checking => exact .nil
  | accepted | refused | evaluatePanicked => exact .cons nofun .nil
  | measured | ready | invokePanicked => exact .cons nofun (.cons nofun .nil)
  | timedOut => exact .cons nofun (.cons nofun (.cons nofun .nil))
  | waiting state hle hleft hremaining | woken state status hle hleft hremaining =>
    exact each_requested before state hle hleft hremaining

/-- Nobody goes on after a deadline. -/
def Early (deadline : ℕ) (before : List (Event T R)) (e : Event T R) : Prop :=
  e.isGoingOn = true → ∀ now state satisfied, .evaluated now state satisfied ∈ before →
    now < deadline

/-- The last round goes on only before the deadline, if the rounds before did. -/
theorem Tail.early (h : Tail timeout start current clock phase tail) (before : List (Event T R))
    (hbefore : ∀ now state satisfied, .evaluated now state satisfied ∈ before →
      now < start + timeout) :
    Each (fun before' => Early (start + timeout) (before ++ before')) tail := by
  have hfirst : ∀ e : Event T R, Early (start + timeout) (before ++ []) e := by
    intro e _ now state satisfied hmem
    exact hbefore now state satisfied (by simpa using hmem)
  have hwait : ∀ {now now' remaining : ℕ} (state : T), now ≤ now' → now' - start < timeout →
      Early (start + timeout) (before ++ [.evaluated now state (some false), .read now'])
        (.waited remaining) := by
    intro now now' remaining state hle hleft _ now₁ state₁ satisfied hmem
    rcases List.mem_append.mp hmem with hold | hnew
    · exact hbefore now₁ state₁ satisfied hold
    · simp only [List.mem_cons, Event.evaluated.injEq, List.not_mem_nil, or_false, reduceCtorEq]
        at hnew
      omega
  cases h with
  | checking => exact .nil
  | accepted | refused | evaluatePanicked => exact .cons (hfirst _) .nil
  | measured | ready | invokePanicked => exact .cons (hfirst _) (.cons nofun .nil)
  | timedOut => exact .cons (hfirst _) (.cons nofun (.cons nofun .nil))
  | waiting state hle hleft | woken state status hle hleft =>
    exact .cons (hfirst _) (.cons nofun (.cons (hwait state hle hleft) .nil))

/-- What the last round says of the result. -/
theorem Tail.returned (h : Tail timeout start current clock phase tail) :
    (∀ result, phase = .returned result →
      ((∃ value, result = .ready value) ↔ ∃ e ∈ tail, e.isInvoked = true)) ∧
    (∀ value, phase = .returned (.ready value) ↔
      ∃ state state', .invoked state (some value) state' ∈ tail) ∧
    tail.countP Event.isInvoked ≤ 1 := by
  refine ⟨fun result hphase => ?_, fun value => ?_, ?_⟩
  · cases h with
    | ready | timedOut =>
      cases hphase
      simp [Event.isInvoked]
    | _ => cases hphase
  · cases h <;> simp [eq_comm]
  · cases h <;> simp [Event.isInvoked]

/-- How the closure is called in the last round. -/
theorem Tail.satisfied (h : Tail timeout start current clock phase tail) {state state' : T}
    {value : Option R} (hmem : .invoked state value state' ∈ tail) :
    ∃ now, tail = [.evaluated now state (some true), .invoked state value state'] := by
  cases h with
  | ready now | invokePanicked now =>
    simp only [List.mem_cons, List.not_mem_nil, or_false, reduceCtorEq, false_or] at hmem
    cases hmem
    exact ⟨now, rfl⟩
  | _ => simp at hmem

/-- How the last round comes to its end without calling the closure. -/
theorem Tail.expired (h : Tail timeout start current clock phase tail)
    (hphase : phase = .returned .timedOut) : ∃ now now' state,
      tail = [.evaluated now state (some false), .read now', .timedOut state] ∧ now ≤ now' ∧
      timeout ≤ now' - start := by
  cases h with
  | timedOut state hle hleft => exact ⟨_, _, state, rfl, hle, hleft⟩
  | _ => cases hphase

/-- The clock is not read for the start again. -/
theorem Tail.started (h : Tail timeout start current clock phase tail) (now : ℕ) :
    .started now ∉ tail := by
  cases h <;> simp

end Told

/-- **An invocation that goes on with its story is exact.** -/
theorem Told.exact {i : Invocation T P R} {es : List (Event T R)} (hes : Told s i es) :
    Exact i es := by
  cases hes with
  | locking c p start =>
    exact ⟨.inl rfl, nofun, by simp, by simp, by simp, nofun, by simp, by simp⟩
  | starting c p start =>
    exact ⟨.inr (.inl rfl), nofun, by simp, by simp [Event.isInvoked], by simp, nofun,
      by simp [List.cons_eq_append_iff], by simp [List.cons_eq_append_iff]⟩
  | @round _ rounds tail hrounds htail =>
    have hmem := hrounds.mem
    -- the closure is called in the last round, if at all
    have hinvoked : ∀ e : Event T R, e.isInvoked = true →
        (e ∈ .locked :: .started i.start :: (rounds ++ tail) ↔ e ∈ tail) := by
      intro e he
      simp only [List.mem_cons, List.mem_append]
      refine ⟨?_, fun h => .inr (.inr (.inr h))⟩
      rintro (rfl | rfl | hold | hlast)
      · cases he
      · cases he
      · exact absurd (he.symm.trans (hmem e hold).1) (by simp)
      · exact hlast
    obtain ⟨hready, hvalue, honce⟩ := htail.returned
    have hearly : Each (Early (i.start + i.timeout))
        (.locked :: .started i.start :: (rounds ++ tail)) := by
      have hbefore : ∀ now state satisfied, .evaluated now state satisfied ∈ rounds →
          now < i.start + i.timeout := fun now state satisfied h =>
        (hmem _ h).2.2.2 now state satisfied rfl
      refine .cons nofun (.cons nofun (.append ?_
        (htail.early (.locked :: .started i.start :: rounds) ?_)))
      · intro before e after heq _ now state satisfied h
        refine hbefore now state satisfied (heq ▸ List.mem_append_left _ ?_)
        simpa using h
      · simpa using hbefore
    have hrequested : Each (Requested i.timeout i.start)
        (.locked :: .started i.start :: (rounds ++ tail)) :=
      .cons nofun (.cons nofun ((hrounds.requested [.locked, .started i.start]).append
        (htail.requested (.locked :: .started i.start :: rounds))))
    refine ⟨.inr (.inr ⟨_, rfl, fun now hnow => ?_⟩), fun result hphase => ?_, fun value => ?_, ?_,
      fun state value state' h => ?_, fun hphase => ?_, fun before remaining after heq => ?_,
      fun before now state satisfied after heq hlate e he => ?_⟩
    · rcases List.mem_append.mp hnow with hold | hlast
      · exact (hmem _ hold).2.2.1 now rfl
      · exact htail.started now hlast
    · rw [hready result hphase]
      exact exists_congr fun e => ⟨fun h => ⟨(hinvoked e h.2).mpr h.1, h.2⟩,
        fun h => ⟨(hinvoked e h.2).mp h.1, h.2⟩⟩
    · rw [hvalue value]
      exact exists_congr fun state => exists_congr fun state' => (hinvoked _ rfl).symm
    · have hnone : rounds.countP Event.isInvoked = 0 :=
        List.countP_eq_zero.mpr fun e he => by simp [(hmem e he).1]
      simpa [List.countP_append, hnone, Event.isInvoked] using honce
    · obtain ⟨now, rfl⟩ := htail.satisfied ((hinvoked _ rfl).mp h)
      exact ⟨.locked :: .started i.start :: rounds, now, rfl⟩
    · obtain ⟨now, now', state, rfl, hle, hleft⟩ := htail.expired hphase
      refine ⟨fun e he => ?_, .locked :: .started i.start :: rounds, now, now', state, rfl, hle,
        hleft⟩
      simp only [List.mem_cons, List.mem_append, List.not_mem_nil, or_false] at he
      rcases he with rfl | rfl | hold | rfl | rfl | rfl
      · rfl
      · rfl
      · exact (hmem e hold).2.1
      · rfl
      · rfl
      · rfl
    · exact hrequested before _ after heq remaining rfl
    · obtain ⟨after₁, after₂, rfl⟩ := List.append_of_mem he
      have hgoing := hearly (before ++ .evaluated now state satisfied :: after₁) e after₂
        (by simpa using heq)
      refine Bool.eq_false_iff.mpr fun htrue => ?_
      have hlt := hgoing htrue now state satisfied (by simp)
      omega

/-! ### The last iteration -/

/-- How many steps an invocation that is in its last iteration has still to take, at most. -/
def Phase.left : Phase R → ℕ
  | checking => 3
  | refused => 2
  | accepted | measured _ => 1
  | _ => 0

/-- The invocation is in its last iteration, or over: what is left of its time is nothing, or
will be nothing when it looks. -/
def Invocation.IsLast (now : ℕ) (i : Invocation T P R) : Prop :=
  match i.phase with
  | .checking | .refused => i.start + i.timeout ≤ now
  | .measured elapsed => i.timeout ≤ elapsed
  | .accepted | .returned _ | .unwound => True
  | _ => False

/-- Where nothing is left to be done in the last iteration, the invocation is over. -/
theorem Invocation.IsLast.isOver {now : ℕ} {i : Invocation T P R} (h : i.IsLast now)
    (hleft : i.phase.left = 0) : i.phase.isOver = true := by
  unfold IsLast at h
  cases hp : i.phase <;> simp_all [Phase.left, Phase.isOver]

/-- A turn in the last iteration is nearer to its end. -/
theorem Turn.isLast {i i' : Invocation T P R} {holder' : Option ℕ} {state' : T} {e : Event T R}
    (h : Turn s k i i' holder' state' e) (hlast : i.IsLast s.now) :
    i'.IsLast s.now ∧ i'.phase.left < i.phase.left := by
  cases h with
  | refuse c p p' start => exact ⟨hlast, Nat.lt_succ_self 2⟩
  | accept c p p' start => exact ⟨trivial, Nat.one_lt_succ_succ 1⟩
  | evaluatePanics | invoke | invokePanics | timeOut => exact ⟨trivial, Nat.succ_pos _⟩
  | read c p start =>
    refine ⟨?_, Nat.lt_succ_self 1⟩
    have hdeadline : start + c.arguments.timeout ≤ s.now := hlast
    exact Nat.le_sub_of_add_le' hdeadline
  | wait c p start elapsed helapsed => exact absurd hlast (Nat.not_le.mpr helapsed)
  | _ => exact absurd hlast id

/-- In its last iteration an invocation can always take its next step. -/
theorem Invocation.IsLast.next {i : Invocation T P R} (hk : s.invocations[k]? = some i)
    (h : i.IsLast s.now) : i.phase.isOver = true ∨ (s.next k).isSome = true := by
  obtain ⟨c, p, start, phase⟩ := i
  cases phase with
  | checking | accepted =>
    refine Or.inr ?_
    rw [Monitor.next, hk]
    dsimp only
    split <;> rfl
  | refused =>
    refine Or.inr ?_
    rw [Monitor.next, hk]
    rfl
  | measured elapsed =>
    refine Or.inr ?_
    rw [Monitor.next, hk]
    dsimp only
    split_ifs <;> rfl
  | returned result | unwound => exact Or.inl rfl
  | _ => exact absurd h id

/-- Whether an action is the next step of an invocation. -/
def Action.isNext (k : ℕ) : Action T P R → Bool
  | .next j => j == k
  | _ => false

/-- **A step in the last iteration**: it stays the last, and the steps of the invocation itself
bring it nearer to its end. -/
theorem Invocation.IsLast.step {i : Invocation T P R} (hk : s.invocations[k]? = some i)
    (h : i.IsLast s.now) {a : Action T P R} (hstep : s.step a = some s') :
    ∃ i', s'.invocations[k]? = some i' ∧ i'.IsLast s'.now ∧
      i'.phase.left + (a.isNext k).toNat ≤ i.phase.left := by
  rcases step_cases hstep with ⟨c, p, rfl, rfl⟩ | ⟨j, rfl, hnext⟩ |
    ⟨j, c, p, start, remaining, status, rfl, hj, rfl⟩ | ⟨j, p, u, rfl, hj, rfl⟩ |
    ⟨state, rfl, -, rfl⟩ | ⟨time, rfl, rfl⟩
  · exact ⟨i, getElem?_concat_of_some hk _, h, le_rfl⟩
  · obtain ⟨u, u', holder', state', e, hj, hturn, rfl, -⟩ := next_cases hnext
    rcases getElem?_set_kept hj hk u' with ⟨rfl, rfl⟩ | ⟨hne, hstill⟩
    · obtain ⟨hlast, hleft⟩ := hturn.isLast h
      refine ⟨u', getElem?_set_of_some hj u', hlast, ?_⟩
      rw [Action.isNext, beq_self_eq_true, Bool.toNat_true]
      exact hleft
    · refine ⟨i, hstill, h, ?_⟩
      simp [Action.isNext, hne]
  · rcases getElem?_set_kept hj hk _ with ⟨-, rfl⟩ | ⟨-, hstill⟩
    · exact absurd h id
    · exact ⟨i, hstill, h, le_rfl⟩
  · rcases getElem?_set_kept hj hk { u with captures := p } with ⟨rfl, rfl⟩ | ⟨-, hstill⟩
    · exact ⟨{ i with captures := p }, getElem?_set_of_some hj _, h, le_rfl⟩
    · exact ⟨i, hstill, h, le_rfl⟩
  · exact ⟨i, hk, h, le_rfl⟩
  · refine ⟨i, hk, ?_, le_rfl⟩
    unfold IsLast at h ⊢
    cases hp : i.phase with
    | checking | refused =>
      rw [hp] at h
      exact Nat.le_add_right_of_le h
    | measured elapsed | accepted | returned result | unwound =>
      rw [hp] at h
      exact h
    | _ => simp [hp] at h

/-- **A run in the last iteration**: whatever the others do, every step of the invocation brings
it nearer to its end. -/
theorem Invocation.IsLast.run {first : T} (as : List (Action T P R)) {s t : Monitor T P R}
    {i : Invocation T P R} (hk : s.invocations[k]? = some i) (h : i.IsLast s.now)
    (hrun : (machine P R first).exec (fun _ _ => true) s as = some t) :
    ∃ i', t.invocations[k]? = some i' ∧ i'.IsLast t.now ∧
      i'.phase.left + as.countP (Action.isNext k) ≤ i.phase.left := by
  induction as generalizing s i with
  | nil =>
    obtain rfl := Option.some.inj hrun
    exact ⟨i, hk, h, le_rfl⟩
  | cons a as ih =>
    rw [Machine.exec, if_pos rfl] at hrun
    obtain ⟨s', hstep, hrest⟩ := Option.bind_eq_some_iff.mp hrun
    obtain ⟨i', hk', h', hle'⟩ := h.step hk hstep
    obtain ⟨i'', hk'', h'', hle''⟩ := ih hk' h' hrest
    refine ⟨i'', hk'', h'', ?_⟩
    rw [List.countP_cons]
    cases hnext : a.isNext k with
    | true =>
      rw [hnext, Bool.toNat_true] at hle'
      simp only [if_true]
      omega
    | false =>
      rw [hnext, Bool.toNat_false] at hle'
      simp only [Bool.false_eq_true, if_false]
      omega

/-! ### Predicate waits are exact -/

/-- The state that has been left behind by those who have changed it, one after the other. -/
def leftBehind (first : T) (log : List (Option ℕ × Event T R)) : T :=
  log.foldl (fun state entry => entry.2.left?.getD state) first

/-- Every step leaves behind what is written of it. -/
theorem leftBehind_step {a : Action T P R} (hstep : s.step a = some s') :
    s'.state = leftBehind s.state (watch s a s') := by
  rcases step_cases hstep with ⟨c, p, rfl, rfl⟩ | ⟨k, rfl, hnext⟩ |
    ⟨k, c, p, start, remaining, status, rfl, hk, rfl⟩ | ⟨k, p, i, rfl, hk, rfl⟩ |
    ⟨state, rfl, hfree, rfl⟩ | ⟨time, rfl, rfl⟩
  · rfl
  · obtain ⟨i, i', holder', state', e, hk, hturn, rfl, hwatch⟩ := next_cases hnext
    rw [hwatch]
    cases hturn <;> rfl
  · rfl
  · rfl
  · rfl
  · rfl

/-- In every run, every invocation has its story, and the protected state is what has been left
behind. -/
theorem storied_of_reach {first : T} {log : List (Option ℕ × Event T R)}
    (hs : ((machine P R first).observe watch).Reach (s, log)) :
    Storied Monitor.invocations Told s log ∧ s.state = leftBehind first log := by
  have hinv := Machine.observe_invariant (M := machine P R first)
    (p := fun _ _ => True) (I := fun s log => s.Exclusive ∧
      Storied Monitor.invocations Told s log ∧ s.state = leftBehind first log) ?_ ?_ hs
  · exact hinv.2.2
  · rintro s ⟨hfirst, hfree, hnil⟩
    refine ⟨fun j => ?_, .start hnil, hfirst⟩
    simp [Monitor.inside, hnil, hfree]
  · rintro s a s' log _ ⟨hexclusive, hlog, hstate⟩ _ hstep
    refine ⟨hexclusive.step hstep, storied_step hexclusive hlog hstep, ?_⟩
    rw [leftBehind_step hstep, hstate, leftBehind, leftBehind, leftBehind, List.foldl_append]

/-- **Predicate waits are exact.** In every run around a monitor, with any number of invocations
of `wait_timeout_while` and `wait_timeout_until`: every invocation is exact, by its story, and
the protected state is what their closures and the other threads have left behind. Where an
iteration begins after the deadline, then whatever the others do, the invocation can always take
its next step, and is over after three of them. -/
theorem exact_of_reach {first : T} {log : List (Option ℕ × Event T R)}
    (hs : ((machine P R first).observe watch).Reach (s, log)) :
    (∀ (k : ℕ) i, s.invocations[k]? = some i → Exact i (story (some k) log)) ∧
    s.state = leftBehind first log ∧
    ∀ (k : ℕ) i, s.invocations[k]? = some i → i.phase = .checking →
      i.start + i.timeout ≤ s.now → ∀ as t,
      (machine P R first).exec (fun _ _ => true) s as = some t →
      ∃ i', t.invocations[k]? = some i' ∧
        (i'.phase.isOver = true ∨ (t.next k).isSome = true) ∧
        (3 ≤ as.countP (Action.isNext k) → i'.phase.isOver = true) := by
  obtain ⟨hlog, hstate⟩ := storied_of_reach hs
  refine ⟨fun k i hk => (hlog.told k i hk).exact, hstate,
    fun k i hk hphase hlate as t hrun => ?_⟩
  have hlast : i.IsLast s.now := by
    unfold Invocation.IsLast
    rw [hphase]
    exact hlate
  obtain ⟨i', hk', hlast', hleft⟩ := hlast.run as hk hrun
  have hthree : i.phase.left = 3 := by
    rw [hphase]
    rfl
  exact ⟨i', hk', hlast'.next hk', fun hcount => hlast'.isOver (by omega)⟩

/-- Somebody waits until a number is not zero, at most for ten units of time. The wait ends
spuriously, and the time is over when another thread writes the number: the invocation finds it
at its next iteration, which is its last, and takes one from it. -/
theorem exact_of_reach_late :
    ∃ (s : Monitor ℕ Unit ℕ) (log : List (Option ℕ × Event ℕ ℕ)), s.state = 6 ∧
      s.invocations.map Invocation.phase = [.returned (.ready 7)] ∧
      (∀ i, s.invocations[0]? = some i → Exact i (story (some 0) log)) ∧
      story (some 0) log = [.locked, .started 0, .evaluated 0 0 (some false), .read 4,
        .waited 6, .locked, .evaluated 11 7 (some true), .invoked 7 (some 7) 6] := by
  obtain ⟨⟨s, log⟩, hs, hp⟩ := Machine.exists_reachVia_of_exec
    (M := (machine Unit ℕ (0 : ℕ)).observe watch) (fun _ _ => True) (fun _ _ => true)
    (fun _ _ _ => trivial) (s := (⟨0, none, 0, []⟩, [])) ⟨⟨rfl, rfl, rfl⟩, rfl⟩
    [.call (.waitTimeoutUntil 10 (fun _ n => (some (n != 0), ())) fun _ n => (some n, n - 1)) (),
      .next 0, .next 0, .next 0, .tick 4, .next 0, .next 0, .wake 0 .woken, .tick 7, .write 7,
      .next 0, .next 0, .next 0]
    (fun t => decide (t.1.state = 6 ∧ t.1.invocations.map Invocation.phase =
      [.returned (.ready 7)] ∧ story (some 0) t.2 = [.locked, .started 0,
        .evaluated 0 0 (some false), .read 4, .waited 6, .locked, .evaluated 11 7 (some true),
        .invoked 7 (some 7) 6])) (by decide)
  obtain ⟨hstate, hphase, hstory⟩ := of_decide_eq_true hp
  exact ⟨s, log, hstate, hphase, (exact_of_reach hs).1 0, hstory⟩

end Lock

end QubitConcurrent
