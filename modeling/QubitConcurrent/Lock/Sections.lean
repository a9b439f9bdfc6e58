import QubitConcurrent.Lock.WaitSet

/-!
# The sections of a monitor

Whatever is called around a monitor, and whoever is taken out of the wait set when: the log of
what was done under the mutex is serial, and what a single call did can be read off its story. A
call with a closure calls it once, in its last section, and one that waits for a predicate calls
it on the state on which the predicate was evaluated right before, in the same section, and told
not to wait. All sections before that were given to evaluations that said to wait.
-/

namespace QubitConcurrent

namespace Lock

namespace WaitSet

variable {T P R : Type} {s s' : Monitor T P R} {k : ℕ}

/-! ### What is written down -/

/-- What is done under the mutex. -/
inductive Deed (T R : Type)
  /-- The predicate is evaluated on a state, and says whether to wait, or panics. -/
  | evaluated (state : T) (waiting : Option Bool)
  /-- The closure is called on a state, returns a value or panics, and leaves a state behind. -/
  | invoked (state : T) (value : Option R) (state' : T)
  /-- The owner of a guard finds a state, and leaves one behind. -/
  | accessed (state state' : T)
  deriving DecidableEq

/-- What a deed does to the protected state. -/
def Deed.Does : Deed T R → T → T → Prop
  | evaluated state _, before, after => before = state ∧ after = state
  | invoked state _ state', before, after => before = state ∧ after = state'
  | accessed state state', before, after => before = state ∧ after = state'

/-- What is written down of the next step of a call. -/
def Invocation.marks (s : Monitor T P R) (i : Invocation T P R) : List (Mark (Deed T R)) :=
  match i.phase with
  | .locking | .woken _ => [.entered .exclusive]
  | .checking =>
    .did (.evaluated s.state (i.call.waiting i.captures s.state).1) ::
      if (i.call.waiting i.captures s.state).1 = none then [.left] else []
  | .accepted =>
    [.did (.invoked s.state (i.call.f i.captures s.state).1 (i.call.f i.captures s.state).2),
      .left]
  | .refused => if i.call.timeout? = none then [.left] else []
  | .measured _ | .guarded | .leaving _ => [.left]
  | _ => []

/-- The observer writes down what is done with the mutex, and under it. -/
def watch (s : Monitor T P R) (a : Action T P R) (_ : Monitor T P R) :
    List (Option ℕ × Mark (Deed T R)) :=
  match a with
  | .next k => ((s.invocations[k]?).elim [] fun i => i.marks s).map fun e => (some k, e)
  | .access k f => [(some k, .did (.accessed s.state (f s.state)))]
  | .wait k _ | .drop k => [(some k, .left)]
  | _ => []

/-! ### What a step is -/

/-- **The turn of a call**, or of the owner of a guard who waits with it or drops it: what becomes
of it, of the mutex and of the protected state, and what is written down. -/
inductive Turn (s : Monitor T P R) (k : ℕ) :
    Invocation T P R → Invocation T P R → Option ℕ → T → List (Mark (Deed T R)) → Prop
  /-- The mutex is taken. -/
  | lock (c : Call T P R) (p : P) (start : ℕ) (h : s.holder = none) :
      Turn s k ⟨c, p, start, .locking⟩ ⟨c, p, start, c.entered⟩ (some k) s.state
        [.entered .exclusive]
  /-- The clock is read for the first time. -/
  | start (c : Call T P R) (p : P) (start : ℕ) :
      Turn s k ⟨c, p, start, .starting⟩ ⟨c, p, s.now, .checking⟩ s.holder s.state []
  /-- The predicate says not to wait. -/
  | accept (c : Call T P R) (p p' : P) (start : ℕ) (h : c.waiting p s.state = (some false, p')) :
      Turn s k ⟨c, p, start, .checking⟩ ⟨c, p', start, .accepted⟩ s.holder s.state
        [.did (.evaluated s.state (some false))]
  /-- The predicate says to wait. -/
  | refuse (c : Call T P R) (p p' : P) (start : ℕ) (h : c.waiting p s.state = (some true, p')) :
      Turn s k ⟨c, p, start, .checking⟩ ⟨c, p', start, .refused⟩ s.holder s.state
        [.did (.evaluated s.state (some true))]
  /-- The predicate panics. -/
  | evaluatePanics (c : Call T P R) (p p' : P) (start : ℕ)
      (h : c.waiting p s.state = (none, p')) :
      Turn s k ⟨c, p, start, .checking⟩ ⟨c, p', start, .unwound⟩ none s.state
        [.did (.evaluated s.state none), .left]
  /-- The closure is called. -/
  | invoke (c : Call T P R) (p : P) (start : ℕ) (value : R) (state' : T)
      (h : c.f p s.state = (some value, state')) :
      Turn s k ⟨c, p, start, .accepted⟩ ⟨c, p, start, .returned (c.reply value)⟩ none state'
        [.did (.invoked s.state (some value) state'), .left]
  /-- The closure panics. -/
  | invokePanics (c : Call T P R) (p : P) (start : ℕ) (state' : T)
      (h : c.f p s.state = (none, state')) :
      Turn s k ⟨c, p, start, .accepted⟩ ⟨c, p, start, .unwound⟩ none state'
        [.did (.invoked s.state none state'), .left]
  /-- A wait without a time limit begins. -/
  | park (c : Call T P R) (p : P) (start : ℕ) (h : c.timeout? = none) :
      Turn s k ⟨c, p, start, .refused⟩ ⟨c, p, start, .parked none⟩ none s.state [.left]
  /-- The clock is read again. -/
  | measure (c : Call T P R) (p : P) (start timeout : ℕ) (h : c.timeout? = some timeout) :
      Turn s k ⟨c, p, start, .refused⟩ ⟨c, p, start, .measured (s.now - start)⟩ s.holder s.state
        []
  /-- No time is left. -/
  | timeOut (c : Call T P R) (p : P) (start elapsed : ℕ) :
      Turn s k ⟨c, p, start, .measured elapsed⟩ ⟨c, p, start, .returned (.result .timedOut)⟩ none
        s.state [.left]
  /-- Some time is left: a wait with a time limit begins. -/
  | parkFor (c : Call T P R) (p : P) (start elapsed remaining : ℕ) :
      Turn s k ⟨c, p, start, .measured elapsed⟩ ⟨c, p, start, .parked (some remaining)⟩ none
        s.state [.left]
  /-- A wait for a notification begins. -/
  | awaitNotification (p : P) (start timeout : ℕ) :
      Turn s k ⟨.waitNotify timeout, p, start, .guarded⟩
        ⟨.waitNotify timeout, p, start, .parked (some timeout)⟩ none s.state [.left]
  /-- The mutex is taken again. -/
  | relock (c : Call T P R) (p : P) (start : ℕ) (status : WaitTimeoutStatus)
      (h : s.holder = none) :
      Turn s k ⟨c, p, start, .woken status⟩ ⟨c, p, start, c.resumed status⟩ (some k) s.state
        [.entered .exclusive]
  /-- The end of a wait for a notification is reported. -/
  | report (c : Call T P R) (p : P) (start : ℕ) (status : WaitTimeoutStatus) :
      Turn s k ⟨c, p, start, .leaving status⟩ ⟨c, p, start, .returned (.status status)⟩ none
        s.state [.left]
  /-- A notification has been sent. -/
  | notify (c : Call T P R) (p : P) (start : ℕ) (h : c.begins = .notifying) :
      Turn s k ⟨c, p, start, .notifying⟩ ⟨c, p, start, .returned .unit⟩ s.holder s.state []
  /-- The owner of a guard waits with it. -/
  | wait (p : P) (start : ℕ) (timeout : Option ℕ) :
      Turn s k ⟨.lock, p, start, .guarded⟩ ⟨.lock, p, start, .parked timeout⟩ none s.state
        [.left]
  /-- A guard is dropped. -/
  | drop (p : P) (start : ℕ) :
      Turn s k ⟨.lock, p, start, .guarded⟩ ⟨.lock, p, start, .returned .unit⟩ none s.state [.left]

/-- A call leaves the wait set, or stays as it is. -/
def Invocation.Rouses (i i' : Invocation T P R) : Prop :=
  i' = i ∨ ∃ remaining status, i.phase = .parked remaining ∧ i' = { i with phase := .woken status }

/-- **Some calls leave the wait set**, and nothing else happens. -/
structure Woken (s s' : Monitor T P R) : Prop where
  /-- The state is as it was, -/
  state : s'.state = s.state
  /-- the mutex is, -/
  holder : s'.holder = s.holder
  /-- and the time. -/
  now : s'.now = s.now
  /-- Nobody makes a call, -/
  length : s'.invocations.length = s.invocations.length
  /-- and who was not in the wait set stays as he was. -/
  rouses : ∀ (j : ℕ) i', s'.invocations[j]? = some i' →
    ∃ i, s.invocations[j]? = some i ∧ i.Rouses i'

/-- Perhaps nobody does. -/
theorem Woken.refl (s : Monitor T P R) : Woken s s :=
  ⟨rfl, rfl, rfl, rfl, fun _ i hi => ⟨i, hi, Or.inl rfl⟩⟩

/-- Perhaps one does. -/
theorem Woken.of_set {c : Call T P R} {p : P} {start : ℕ} {remaining : Option ℕ}
    (hk : s.invocations[k]? = some ⟨c, p, start, .parked remaining⟩) (status : WaitTimeoutStatus) :
    Woken s (s.set k ⟨c, p, start, .woken status⟩) := by
  refine ⟨rfl, rfl, rfl, List.length_set .., fun j i' hj => ?_⟩
  rcases getElem?_set_cases hk hj with ⟨rfl, rfl⟩ | ⟨-, hold⟩
  · exact ⟨_, hk, Or.inr ⟨remaining, status, rfl, rfl⟩⟩
  · exact ⟨i', hold, Or.inl rfl⟩

/-- Perhaps all do. -/
theorem Woken.of_notifyAll (s : Monitor T P R) : Woken s s.notifyAll := by
  refine ⟨rfl, rfl, rfl, List.length_map .., fun j i' hj => ?_⟩
  simp only [Monitor.notifyAll, List.getElem?_map, Option.map_eq_some_iff] at hj
  obtain ⟨i, hi, rfl⟩ := hj
  refine ⟨i, hi, ?_⟩
  unfold Invocation.notified
  split
  · next remaining hphase => exact Or.inr ⟨remaining, .woken, hphase, rfl⟩
  · exact Or.inl rfl

/-- Who is not in the wait set is found as he was. -/
theorem Woken.getElem? (h : Woken s s') {i : Invocation T P R} (hk : s.invocations[k]? = some i)
    (hphase : i.phase.isParked = false) : s'.invocations[k]? = some i := by
  have hlt := (List.getElem?_eq_some_iff.mp hk).1
  rw [← h.length] at hlt
  obtain ⟨i₀, hi₀, hrouses⟩ := h.rouses k _ (List.getElem?_eq_getElem hlt)
  obtain rfl := Option.some.inj (hk.symm.trans hi₀)
  rw [List.getElem?_eq_getElem hlt]
  rcases hrouses with heq | ⟨remaining, status, hparked, -⟩
  · rw [heq]
  · rw [hparked] at hphase
    cases hphase

/-- What a call's turn makes of a monitor. -/
def Monitor.after (s : Monitor T P R) (k : ℕ) (i' : Invocation T P R) (holder' : Option ℕ)
    (state' : T) : Monitor T P R :=
  { s with state := state', holder := holder', invocations := s.invocations.set k i' }

/-- **What the step of a call is.** -/
theorem next_cases (hnext : s.next k = some s') :
    ∃ s₁ i i' holder' state' marks, Woken s s₁ ∧ (s₁ = s ∨ i.phase = .notifying) ∧
      s₁.invocations[k]? = some i ∧ Turn s₁ k i i' holder' state' marks ∧
      s' = s₁.after k i' holder' state' ∧
      watch s (.next k) s' = marks.map fun e => (some k, e) := by
  rw [Monitor.next] at hnext
  split at hnext
  · next c p start hk =>
    rw [Monitor.lock] at hnext
    split_ifs at hnext with hfree
    obtain rfl := Option.some.inj hnext
    exact ⟨s, _, _, _, _, _, .refl s, .inl rfl, hk, .lock c p start hfree, rfl,
      by simp [watch, hk, Invocation.marks]⟩
  · next c p start hk =>
    obtain rfl := Option.some.inj hnext
    exact ⟨s, _, _, _, _, _, .refl s, .inl rfl, hk, .start c p start, rfl,
      by simp [watch, hk, Invocation.marks]⟩
  · next c p start hk =>
    split at hnext
    · next p' hwaiting =>
      obtain rfl := Option.some.inj hnext
      exact ⟨s, _, _, _, _, _, .refl s, .inl rfl, hk, .accept c p p' start hwaiting, rfl,
        by simp [watch, hk, Invocation.marks, hwaiting]⟩
    · next p' hwaiting =>
      obtain rfl := Option.some.inj hnext
      exact ⟨s, _, _, _, _, _, .refl s, .inl rfl, hk, .refuse c p p' start hwaiting, rfl,
        by simp [watch, hk, Invocation.marks, hwaiting]⟩
    · next p' hwaiting =>
      obtain rfl := Option.some.inj hnext
      exact ⟨s, _, _, _, _, _, .refl s, .inl rfl, hk, .evaluatePanics c p p' start hwaiting, rfl,
        by simp [watch, hk, Invocation.marks, hwaiting]⟩
  · next c p start hk =>
    split at hnext
    · next value state' hf =>
      obtain rfl := Option.some.inj hnext
      exact ⟨s, _, _, _, _, _, .refl s, .inl rfl, hk, .invoke c p start value state' hf, rfl,
        by simp [watch, hk, Invocation.marks, hf]⟩
    · next state' hf =>
      obtain rfl := Option.some.inj hnext
      exact ⟨s, _, _, _, _, _, .refl s, .inl rfl, hk, .invokePanics c p start state' hf, rfl,
        by simp [watch, hk, Invocation.marks, hf]⟩
  · next c p start hk =>
    split at hnext
    · next htimeout =>
      obtain rfl := Option.some.inj hnext
      exact ⟨s, _, _, _, _, _, .refl s, .inl rfl, hk, .park c p start htimeout, rfl,
        by simp [watch, hk, Invocation.marks, htimeout]⟩
    · next timeout htimeout =>
      obtain rfl := Option.some.inj hnext
      exact ⟨s, _, _, _, _, _, .refl s, .inl rfl, hk, .measure c p start timeout htimeout, rfl,
        by simp [watch, hk, Invocation.marks, htimeout]⟩
  · next c p start elapsed hk =>
    simp only at hnext
    split_ifs at hnext with hzero
    · obtain rfl := Option.some.inj hnext
      exact ⟨s, _, _, _, _, _, .refl s, .inl rfl, hk, .timeOut c p start elapsed, rfl,
        by simp [watch, hk, Invocation.marks]⟩
    · obtain rfl := Option.some.inj hnext
      exact ⟨s, _, _, _, _, _, .refl s, .inl rfl, hk, .parkFor c p start elapsed _, rfl,
        by simp [watch, hk, Invocation.marks]⟩
  · next timeout p start hk =>
    obtain rfl := Option.some.inj hnext
    exact ⟨s, _, _, _, _, _, .refl s, .inl rfl, hk, .awaitNotification p start timeout, rfl,
      by simp [watch, hk, Invocation.marks]⟩
  · next c p start status hk =>
    rw [Monitor.lock] at hnext
    split_ifs at hnext with hfree
    obtain rfl := Option.some.inj hnext
    exact ⟨s, _, _, _, _, _, .refl s, .inl rfl, hk, .relock c p start status hfree, rfl,
      by simp [watch, hk, Invocation.marks]⟩
  · next c p start status hk =>
    obtain rfl := Option.some.inj hnext
    exact ⟨s, _, _, _, _, _, .refl s, .inl rfl, hk, .report c p start status, rfl,
      by simp [watch, hk, Invocation.marks]⟩
  · next p start hk =>
    obtain rfl := Option.some.inj hnext
    have hall := Woken.of_notifyAll s
    exact ⟨s.notifyAll, _, _, _, _, _, hall, .inr rfl, hall.getElem? hk rfl,
      .notify .notifyAll p start rfl, rfl, by simp [watch, hk, Invocation.marks]⟩
  · cases hnext

/-- **What a step is**: a call is made; or one of those that were takes its turn, after it has taken
others out of the wait set if it is there for that; or a guard is used; or a wait ends without a
notification; or somebody changes what a call captures; or time passes. -/
theorem step_cases {a : Action T P R} (hstep : s.step a = some s') :
    (∃ c p, a = .call c p ∧
      s' = { s with invocations := s.invocations ++ [⟨c, p, 0, c.begins⟩] }) ∨
    (∃ s₁ k i i' holder' state' marks, Woken s s₁ ∧ (s₁ = s ∨ i.phase = .notifying) ∧
      s₁.invocations[k]? = some i ∧ Turn s₁ k i i' holder' state' marks ∧
      s' = s₁.after k i' holder' state' ∧ watch s a s' = marks.map fun e => (some k, e)) ∨
    (∃ k f p start, a = .access k f ∧ s.invocations[k]? = some ⟨.lock, p, start, .guarded⟩ ∧
      s' = { s with state := f s.state }) ∨
    (∃ k status c p start remaining, a = .wake k status ∧
      s.invocations[k]? = some ⟨c, p, start, .parked remaining⟩ ∧
      s' = s.set k ⟨c, p, start, .woken status⟩) ∨
    (∃ k p i, a = .influence k p ∧ s.invocations[k]? = some i ∧
      s' = s.set k { i with captures := p }) ∨
    (∃ time, a = .tick time ∧ s' = { s with now := s.now + time }) := by
  cases a with
  | call c p => exact Or.inl ⟨c, p, rfl, (Option.some.inj hstep).symm⟩
  | next k =>
    obtain ⟨s₁, i, i', holder', state', marks, h⟩ := next_cases hstep
    exact Or.inr (Or.inl ⟨s₁, k, i, i', holder', state', marks, h⟩)
  | notify k target =>
    simp only [Monitor.step, Monitor.notify] at hstep
    split at hstep
    · next p start hk =>
      obtain ⟨s₁, hone, rfl⟩ := Option.map_eq_some_iff.mp hstep
      have hwoken : Woken s s₁ := by
        cases target with
        | none =>
          simp only [Monitor.notifyOne] at hone
          split_ifs at hone
          obtain rfl := Option.some.inj hone
          exact .refl s
        | some j =>
          simp only [Monitor.notifyOne] at hone
          split at hone
          · next c p start remaining hj =>
            obtain rfl := Option.some.inj hone
            exact .of_set hj .woken
          · cases hone
      exact Or.inr (Or.inl ⟨s₁, k, _, _, _, _, [], hwoken, .inr rfl, hwoken.getElem? hk rfl,
        .notify .notifyOne p start rfl, rfl, rfl⟩)
    · cases hstep
  | access k f =>
    simp only [Monitor.step, Monitor.access] at hstep
    split at hstep
    · next p start hk =>
      exact Or.inr (Or.inr (Or.inl ⟨k, f, p, start, rfl, hk, (Option.some.inj hstep).symm⟩))
    · cases hstep
  | wait k timeout =>
    simp only [Monitor.step, Monitor.wait] at hstep
    split at hstep
    · next p start hk =>
      obtain rfl := Option.some.inj hstep
      exact Or.inr (Or.inl ⟨s, k, _, _, _, _, _, .refl s, .inl rfl, hk, .wait p start timeout, rfl,
        rfl⟩)
    · cases hstep
  | drop k =>
    simp only [Monitor.step, Monitor.drop] at hstep
    split at hstep
    · next p start hk =>
      obtain rfl := Option.some.inj hstep
      exact Or.inr (Or.inl ⟨s, k, _, _, _, _, _, .refl s, .inl rfl, hk, .drop p start, rfl, rfl⟩)
    · cases hstep
  | wake k status =>
    simp only [Monitor.step, Monitor.wake] at hstep
    split at hstep
    · next c p start remaining hk =>
      split_ifs at hstep
      exact Or.inr (Or.inr (Or.inr (Or.inl ⟨k, status, c, p, start, remaining, rfl, hk,
        (Option.some.inj hstep).symm⟩)))
    · cases hstep
  | influence k p =>
    obtain ⟨i, hk, rfl⟩ := Option.map_eq_some_iff.mp hstep
    exact Or.inr (Or.inr (Or.inr (Or.inr (Or.inl ⟨k, p, i, rfl, hk, rfl⟩))))
  | tick time =>
    exact Or.inr (Or.inr (Or.inr (Or.inr (Or.inr ⟨time, rfl, (Option.some.inj hstep).symm⟩))))

/-! ### Who is inside the critical section -/

/-- Whether a call is inside a critical section. -/
def Monitor.inside (s : Monitor T P R) : ℕ → Bool :=
  fun j => (s.invocations[j]?).any fun i => i.phase.isCritical

/-- **Mutual exclusion**: whoever is inside a critical section is the holder of the mutex. -/
def Monitor.Exclusive (s : Monitor T P R) : Prop := ∀ j, s.inside j = true ↔ s.holder = some j

/-- A call that begins is outside. -/
theorem Call.isCritical_begins (c : Call T P R) : (c.begins : Phase R).isCritical = false := by
  cases c <;> rfl

/-- A call that has taken the mutex is inside, -/
theorem Call.isCritical_entered (c : Call T P R) : (c.entered : Phase R).isCritical = true := by
  cases c <;> rfl

/-- and so is one that has taken it again. -/
theorem Call.isCritical_resumed (c : Call T P R) (status : WaitTimeoutStatus) :
    (c.resumed status : Phase R).isCritical = true := by
  cases c <;> rfl

/-- Who leaves the wait set stays outside. -/
theorem Invocation.Rouses.isCritical {i i' : Invocation T P R} (h : i.Rouses i') :
    i'.phase.isCritical = i.phase.isCritical := by
  rcases h with rfl | ⟨remaining, status, hphase, rfl⟩
  · rfl
  · rw [hphase]
    rfl

/-- So mutual exclusion is not touched. -/
theorem Monitor.Exclusive.woken (h : s.Exclusive) (hwoken : Woken s s') : s'.Exclusive := by
  intro j
  have hinside : s'.inside j = s.inside j := by
    unfold inside
    cases hj : s'.invocations[j]? with
    | none =>
      rw [List.getElem?_eq_none_iff, hwoken.length, ← List.getElem?_eq_none_iff] at hj
      rw [hj]
    | some i' =>
      obtain ⟨i, hi, hrouses⟩ := hwoken.rouses j i' hj
      rw [hi, Option.any_some, Option.any_some, hrouses.isCritical]
  rw [hinside, hwoken.holder]
  exact h j

/-- Who takes a turn outside does not touch the state, and enters only if the mutex is free. After
the turn the call holds the mutex if it is inside, and nobody does if it has left. -/
theorem Turn.holder {i i' : Invocation T P R} {holder' : Option ℕ} {state' : T}
    {marks : List (Mark (Deed T R))} (h : Turn s k i i' holder' state' marks)
    (hin : i.phase.isCritical = true → s.holder = some k) :
    (i.phase.isCritical = false →
      state' = s.state ∧ (i'.phase.isCritical = true → s.holder = none)) ∧
    holder' = if i'.phase.isCritical then some k else
      if i.phase.isCritical then none else s.holder := by
  cases h with
  | lock c p start hfree =>
    exact ⟨fun _ => ⟨rfl, fun _ => hfree⟩, by rw [c.isCritical_entered, if_pos rfl]⟩
  | relock c p start status hfree =>
    exact ⟨fun _ => ⟨rfl, fun _ => hfree⟩, by rw [c.isCritical_resumed, if_pos rfl]⟩
  | start | accept | refuse | measure => exact ⟨nofun, hin rfl⟩
  | notify => exact ⟨fun _ => ⟨rfl, nofun⟩, rfl⟩
  | _ => exact ⟨nofun, rfl⟩

/-- Who is inside is the holder. -/
theorem Monitor.Exclusive.holder_eq (h : s.Exclusive) {i : Invocation T P R}
    (hk : s.invocations[k]? = some i) (hi : i.phase.isCritical = true) : s.holder = some k :=
  (h k).mp (by rw [inside, hk, Option.any_some, hi])

/-- Beside one that is inside nobody else is. -/
theorem Monitor.Exclusive.not_isCritical (h : s.Exclusive) {i u : Invocation T P R}
    (hk : s.invocations[k]? = some i) (hi : i.phase.isCritical = true) {j : ℕ}
    (hj : s.invocations[j]? = some u) (hne : j ≠ k) : ¬u.phase.isCritical = true := by
  intro hu
  exact hne (Option.some.inj ((h.holder_eq hj hu).symm.trans (h.holder_eq hk hi)))

/-- A turn keeps mutual exclusion. -/
theorem Monitor.Exclusive.turn (h : s.Exclusive) {i i' : Invocation T P R} {holder' : Option ℕ}
    {state' : T} {marks : List (Mark (Deed T R))} (hk : s.invocations[k]? = some i)
    (hturn : Turn s k i i' holder' state' marks) : (s.after k i' holder' state').Exclusive := by
  obtain ⟨houtside, hholder⟩ := hturn.holder (h.holder_eq hk)
  intro j
  have hinside : (s.after k i' holder' state').inside j =
      Function.update s.inside k i'.phase.isCritical j := by
    unfold inside after
    exact congrFun (any_getElem?_set hk _ _) j
  rw [hinside]
  change _ ↔ holder' = some j
  rw [hholder]
  rcases eq_or_ne j k with rfl | hne
  · -- the one that moves is inside after it as the holder, or does not hold the mutex
    rw [Function.update_self]
    cases hafter : i'.phase.isCritical with
    | true => simp
    | false =>
      cases hbefore : i.phase.isCritical with
      | true => simp
      | false =>
        have hj := h j
        rw [inside, hk, Option.any_some, hbefore] at hj
        simpa using hj
  · -- nobody else is inside where one enters, or is inside already
    rw [Function.update_of_ne hne, h j]
    cases hbefore : i.phase.isCritical with
    | true =>
      rw [h.holder_eq hk hbefore]
      cases i'.phase.isCritical <;> simp [hne.symm]
    | false =>
      cases hafter : i'.phase.isCritical with
      | true =>
        rw [(houtside hbefore).2 hafter]
        simp [hne.symm]
      | false => simp

/-- **Every step keeps mutual exclusion.** -/
theorem Monitor.Exclusive.step (h : s.Exclusive) {a : Action T P R}
    (hstep : s.step a = some s') : s'.Exclusive := by
  rcases step_cases hstep with ⟨c, p, -, rfl⟩ |
    ⟨s₁, k, i, i', holder', state', marks, hwoken, -, hk, hturn, rfl, -⟩ |
    ⟨k, f, p, start, -, hk, rfl⟩ | ⟨k, status, c, p, start, remaining, -, hk, rfl⟩ |
    ⟨k, p, i, -, hk, rfl⟩ | ⟨time, -, rfl⟩
  · intro j
    have hinside := congrFun (any_getElem?_append (l := s.invocations)
      (p := fun i => i.phase.isCritical) (b := ⟨c, p, 0, c.begins⟩) c.isCritical_begins) j
    exact (iff_of_eq (congrArg (· = true) hinside)).trans (h j)
  · exact (h.woken hwoken).turn hk hturn
  · exact h
  · exact h.woken (.of_set hk status)
  · intro j
    have hinside := congrFun (any_getElem?_set_same hk (p := fun i => i.phase.isCritical)
      (b := { i with captures := p }) rfl) j
    exact (iff_of_eq (congrArg (· = true) hinside)).trans (h j)
  · exact h

/-! ### The log of the sections is serial -/

/-- **A turn is a piece of a serial log.** -/
theorem Turn.serial {first : T} {log : List (Option ℕ × Mark (Deed T R))}
    {i i' : Invocation T P R} {holder' : Option ℕ} {state' : T} {marks : List (Mark (Deed T R))}
    (h : Turn s k i i' holder' state' marks)
    (hin : i.phase.isCritical = true → s.holder = some k)
    (hlog : Serial Deed.Does first log (heldBy s.holder) s.state) :
    Serial Deed.Does first (log ++ marks.map fun e => (some k, e)) (heldBy holder') state' := by
  -- one that is inside acts, and stays there or leaves
  have hheld : i.phase.isCritical = true → Serial Deed.Does first log (heldBy (some k)) s.state :=
    fun hi => hin hi ▸ hlog
  have hdeed : ∀ (deed : Deed T R) {after : T}, i.phase.isCritical = true →
      deed.Does s.state after → Serial Deed.Does first (log ++ [(some k, .did deed)] ++
        [(some k, .left)]) (heldBy none) after :=
    fun deed _ hi hdoes => ((hheld hi).acts hdoes).leaves
  cases h with
  | lock c p start hfree | relock c p start status hfree =>
    rw [hfree] at hlog
    exact hlog.enters k
  | start | measure | notify => simpa using hlog
  | accept | refuse =>
    rw [hin rfl]
    exact (hheld rfl).acts ⟨rfl, rfl⟩
  | evaluatePanics => simpa using hdeed (.evaluated s.state none) rfl ⟨rfl, rfl⟩
  | invoke c p start value =>
    simpa using hdeed (.invoked s.state (some value) state') rfl ⟨rfl, rfl⟩
  | invokePanics => simpa using hdeed (.invoked s.state none state') rfl ⟨rfl, rfl⟩
  | _ => exact (hheld rfl).leaves

/-! ### The story of a call -/

/-- The sections in which a predicate said to wait. -/
inductive Rounds (c : Call T P R) : List (Mark (Deed T R)) → Prop
  /-- None yet. -/
  | nil : Rounds c []
  /-- One more. -/
  | snoc {es : List (Mark (Deed T R))} (h : Rounds c es) {p p' : P} {state : T}
      (hwaiting : c.waiting p state = (some true, p')) :
      Rounds c (es ++ [.entered .exclusive, .did (.evaluated state (some true)), .left])

/-- How the section begins in which the closure is called on a state. -/
inductive Cleared (c : Call T P R) (state : T) : List (Mark (Deed T R)) → Prop
  /-- Nothing is waited for. -/
  | plain (h : c.waits = false) : Cleared c state [.entered .exclusive]
  /-- The predicate says not to wait. -/
  | satisfied (h : c.waits = true) {p p' : P} (hwaiting : c.waiting p state = (some false, p')) :
      Cleared c state [.entered .exclusive, .did (.evaluated state (some false))]

/-- The sections of a guard. The last one may not be over. -/
inductive Guarded : Bool → List (Mark (Deed T R)) → Prop
  /-- None yet. -/
  | nil : Guarded false []
  /-- One begins. -/
  | enter {es : List (Mark (Deed T R))} (h : Guarded false es) :
      Guarded true (es ++ [.entered .exclusive])
  /-- The guard is used. -/
  | access {es : List (Mark (Deed T R))} (h : Guarded true es) (state state' : T) :
      Guarded true (es ++ [.did (.accessed state state')])
  /-- The section is over. -/
  | leave {es : List (Mark (Deed T R))} (h : Guarded true es) : Guarded false (es ++ [.left])

/-- **The story of a call so far**, by where it stands. -/
inductive Told (s : Monitor T P R) : Invocation T P R → List (Mark (Deed T R)) → Prop
  /-- A call that takes the mutex first has not begun. -/
  | locking (c : Call T P R) (p : P) (start : ℕ) (h : c.begins = .locking) :
      Told s ⟨c, p, start, .locking⟩ []
  /-- A wait with a time limit has taken it. -/
  | starting (c : Call T P R) (p : P) (start : ℕ) (h : c.waits = true) :
      Told s ⟨c, p, start, .starting⟩ [.entered .exclusive]
  /-- A call that waits for a predicate has taken it, perhaps again. -/
  | checking (c : Call T P R) (p : P) (start : ℕ) (h : c.waits = true)
      {es : List (Mark (Deed T R))} (hes : Rounds c es) :
      Told s ⟨c, p, start, .checking⟩ (es ++ [.entered .exclusive])
  /-- It has nothing to wait for in this state. -/
  | accepted (c : Call T P R) (p : P) (start : ℕ) (h : c.invokes = true)
      {es es' : List (Mark (Deed T R))} (hes : Rounds c es) (hes' : Cleared c s.state es') :
      Told s ⟨c, p, start, .accepted⟩ (es ++ es')
  /-- It has to wait in this state. -/
  | refused (c : Call T P R) (p : P) (start : ℕ) (h : c.waits = true)
      {es : List (Mark (Deed T R))} (hes : Rounds c es) {p₀ p' : P}
      (hwaiting : c.waiting p₀ s.state = (some true, p')) :
      Told s ⟨c, p, start, .refused⟩
        (es ++ [.entered .exclusive, .did (.evaluated s.state (some true))])
  /-- It has looked how much time is left. -/
  | measured (c : Call T P R) (p : P) (start elapsed : ℕ) (h : c.timeout? ≠ none)
      {es : List (Mark (Deed T R))} (hes : Rounds c es) {p₀ p' : P}
      (hwaiting : c.waiting p₀ s.state = (some true, p')) :
      Told s ⟨c, p, start, .measured elapsed⟩
        (es ++ [.entered .exclusive, .did (.evaluated s.state (some true))])
  /-- It waits, -/
  | parked (c : Call T P R) (p : P) (start : ℕ) (remaining : Option ℕ) (h : c.waits = true)
      {es : List (Mark (Deed T R))} (hes : Rounds c es) (hne : es ≠ []) :
      Told s ⟨c, p, start, .parked remaining⟩ es
  /-- and no longer. -/
  | woken (c : Call T P R) (p : P) (start : ℕ) (status : WaitTimeoutStatus) (h : c.waits = true)
      {es : List (Mark (Deed T R))} (hes : Rounds c es) (hne : es ≠ []) :
      Told s ⟨c, p, start, .woken status⟩ es
  /-- **The closure was called once**, in the last section, on the state in which nothing was to
  be waited for, and what it has produced is returned. -/
  | returned (c : Call T P R) (p : P) (start : ℕ) (h : c.invokes = true)
      {es es' : List (Mark (Deed T R))} {state state' : T} {p₀ : P} {value : R}
      (hes : Rounds c es) (hes' : Cleared c state es')
      (hf : c.f p₀ state = (some value, state')) :
      Told s ⟨c, p, start, .returned (c.reply value)⟩
        (es ++ (es' ++ [.did (.invoked state (some value) state'), .left]))
  /-- It was called once, and has panicked. -/
  | invokePanicked (c : Call T P R) (p : P) (start : ℕ) (h : c.invokes = true)
      {es es' : List (Mark (Deed T R))} {state state' : T} {p₀ : P}
      (hes : Rounds c es) (hes' : Cleared c state es') (hf : c.f p₀ state = (none, state')) :
      Told s ⟨c, p, start, .unwound⟩
        (es ++ (es' ++ [.did (.invoked state none state'), .left]))
  /-- The predicate has panicked, and the closure was not called. -/
  | evaluatePanicked (c : Call T P R) (p : P) (start : ℕ) (h : c.waits = true)
      {es : List (Mark (Deed T R))} {state : T} {p₀ p' : P} (hes : Rounds c es)
      (hwaiting : c.waiting p₀ state = (none, p')) :
      Told s ⟨c, p, start, .unwound⟩
        (es ++ [.entered .exclusive, .did (.evaluated state none), .left])
  /-- The time limit of a wait is over: the predicate said to wait in every section, and the
  closure was not called. -/
  | timedOut (c : Call T P R) (p : P) (start : ℕ) (h : c.timeout? ≠ none)
      {es : List (Mark (Deed T R))} (hes : Rounds c es) (hne : es ≠ []) :
      Told s ⟨c, p, start, .returned (.result .timedOut)⟩ es
  /-- A wait for a notification has taken the mutex, -/
  | notifyGuarded (timeout : ℕ) (p : P) (start : ℕ) :
      Told s ⟨.waitNotify timeout, p, start, .guarded⟩ [.entered .exclusive]
  /-- waits, -/
  | notifyParked (timeout : ℕ) (p : P) (start : ℕ) (remaining : Option ℕ) :
      Told s ⟨.waitNotify timeout, p, start, .parked remaining⟩ [.entered .exclusive, .left]
  /-- and no longer, -/
  | notifyWoken (timeout : ℕ) (p : P) (start : ℕ) (status : WaitTimeoutStatus) :
      Told s ⟨.waitNotify timeout, p, start, .woken status⟩ [.entered .exclusive, .left]
  /-- takes the mutex again -/
  | notifyLeaving (timeout : ℕ) (p : P) (start : ℕ) (status : WaitTimeoutStatus) :
      Told s ⟨.waitNotify timeout, p, start, .leaving status⟩
        [.entered .exclusive, .left, .entered .exclusive]
  /-- and says how the wait has ended. -/
  | notifyReturned (timeout : ℕ) (p : P) (start : ℕ) (status : WaitTimeoutStatus) :
      Told s ⟨.waitNotify timeout, p, start, .returned (.status status)⟩
        [.entered .exclusive, .left, .entered .exclusive, .left]
  /-- A notification is sent without the mutex. -/
  | notifying (c : Call T P R) (p : P) (start : ℕ) (h : c.begins = .notifying) :
      Told s ⟨c, p, start, .notifying⟩ []
  /-- It was sent. -/
  | notified (c : Call T P R) (p : P) (start : ℕ) (h : c.begins = .notifying) :
      Told s ⟨c, p, start, .returned .unit⟩ []
  /-- A guard is used, -/
  | guarded (p : P) (start : ℕ) {es : List (Mark (Deed T R))} (hes : Guarded true es) :
      Told s ⟨.lock, p, start, .guarded⟩ es
  /-- its owner waits with it, -/
  | guardParked (p : P) (start : ℕ) (remaining : Option ℕ) {es : List (Mark (Deed T R))}
      (hes : Guarded false es) : Told s ⟨.lock, p, start, .parked remaining⟩ es
  /-- and no longer, -/
  | guardWoken (p : P) (start : ℕ) (status : WaitTimeoutStatus) {es : List (Mark (Deed T R))}
      (hes : Guarded false es) : Told s ⟨.lock, p, start, .woken status⟩ es
  /-- and has dropped it. -/
  | dropped (p : P) (start : ℕ) {es : List (Mark (Deed T R))} (hes : Guarded false es) :
      Told s ⟨.lock, p, start, .returned .unit⟩ es

/-- Who waits for a predicate ends with a closure. -/
theorem Call.invokes_of_waits {c : Call T P R} (h : c.waits = true) : c.invokes = true := by
  cases c <;> first | rfl | cases h

/-- Who has a time limit waits for a predicate. -/
theorem Call.waits_of_timeout? {c : Call T P R} (h : c.timeout? ≠ none) : c.waits = true := by
  cases c <;> first | rfl | exact absurd rfl h

/-- Who waits for a predicate goes on to its next iteration. -/
theorem Call.resumed_of_waits {c : Call T P R} (h : c.waits = true) (status : WaitTimeoutStatus) :
    c.resumed status = (.checking : Phase R) := by
  cases c <;> first | rfl | cases h

/-- **A call goes on with its story.** -/
theorem Told.turn {i i' : Invocation T P R} {holder' : Option ℕ} {state' : T}
    {es marks : List (Mark (Deed T R))} (hes : Told s i es)
    (h : Turn s k i i' holder' state' marks) (ts : List (Invocation T P R)) :
    Told { s with state := state', holder := holder', invocations := ts } i' (es ++ marks) := by
  cases h with
  | lock c p start =>
    cases hes with
    | locking _ _ _ hbegins =>
      cases c with
      | lock => exact .guarded p start (.enter .nil)
      | read f | write f => exact .accepted _ p start rfl .nil (.plain rfl)
      | waitNotify timeout => exact .notifyGuarded timeout p start
      | waitWhile waiting f | waitUntil ready f => exact .checking _ p start rfl .nil
      | waitTimeout c => exact .starting _ p start rfl
      | notifyOne | notifyAll => cases hbegins
  | start c p start =>
    cases hes with
    | starting _ _ _ hwaits => exact .checking c p s.now hwaits .nil
  | accept c p p' start hwaiting =>
    cases hes with
    | checking _ _ _ hwaits hrounds =>
      rw [List.append_assoc]
      exact .accepted c p' start (Call.invokes_of_waits hwaits) hrounds (.satisfied hwaits hwaiting)
  | refuse c p p' start hwaiting =>
    cases hes with
    | checking _ _ _ hwaits hrounds =>
      rw [List.append_assoc]
      exact .refused c p' start hwaits hrounds hwaiting
  | evaluatePanics c p p' start hwaiting =>
    cases hes with
    | checking _ _ _ hwaits hrounds =>
      rw [List.append_assoc]
      exact .evaluatePanicked c p' start hwaits hrounds hwaiting
  | invoke c p start value state' hf =>
    cases hes with
    | accepted _ _ _ hinvokes hrounds hcleared =>
      rw [List.append_assoc]
      exact .returned c p start hinvokes hrounds hcleared hf
  | invokePanics c p start state' hf =>
    cases hes with
    | accepted _ _ _ hinvokes hrounds hcleared =>
      rw [List.append_assoc]
      exact .invokePanicked c p start hinvokes hrounds hcleared hf
  | park c p start htimeout =>
    cases hes with
    | refused _ _ _ hwaits hrounds hwaiting =>
      rw [List.append_assoc]
      exact .parked c p start none hwaits (hrounds.snoc hwaiting) (by simp)
  | measure c p start timeout htimeout =>
    cases hes with
    | refused _ _ _ hwaits hrounds hwaiting =>
      rw [List.append_nil]
      exact .measured c p start _ (by simp [htimeout]) hrounds hwaiting
  | timeOut c p start elapsed =>
    cases hes with
    | measured _ _ _ _ htimeout hrounds hwaiting =>
      rw [List.append_assoc]
      exact .timedOut c p start htimeout (hrounds.snoc hwaiting) (by simp)
  | parkFor c p start elapsed remaining =>
    cases hes with
    | measured _ _ _ _ htimeout hrounds hwaiting =>
      rw [List.append_assoc]
      exact .parked c p start _ (Call.waits_of_timeout? htimeout) (hrounds.snoc hwaiting) (by simp)
  | awaitNotification p start timeout =>
    cases hes with
    | notifyGuarded => exact .notifyParked timeout p start _
  | relock c p start status =>
    cases hes with
    | woken _ _ _ _ hwaits hrounds =>
      rw [Call.resumed_of_waits hwaits]
      exact .checking c p start hwaits hrounds
    | notifyWoken timeout => exact .notifyLeaving timeout p start status
    | guardWoken _ _ _ hguarded => exact .guarded p start hguarded.enter
  | report c p start status =>
    cases hes with
    | notifyLeaving timeout => exact .notifyReturned timeout p start status
  | notify c p start =>
    cases hes with
    | notifying _ _ _ hbegins => exact .notified c p start hbegins
  | wait p start timeout =>
    cases hes with
    | guarded _ _ hguarded => exact .guardParked p start timeout hguarded.leave
  | drop p start =>
    cases hes with
    | guarded _ _ hguarded => exact .dropped p start hguarded.leave

/-- **The story of a call is kept by what others do**: whoever is inside the critical section
finds the protected state as it was, and what a call captures is not told. -/
theorem Told.stays {i : Invocation T P R} {es : List (Mark (Deed T R))} (hes : Told s i es)
    (hstate : i.phase.isCritical = true → s'.state = s.state) (p : P) :
    Told s' { i with captures := p } es := by
  cases hes with
  | accepted c _ start h hrounds hcleared =>
    exact .accepted c p start h hrounds (hstate rfl ▸ hcleared)
  | refused c _ start h hrounds hwaiting =>
    have hsame : s'.state = s.state := hstate rfl
    rw [← hsame] at hwaiting ⊢
    exact .refused c p start h hrounds hwaiting
  | measured c _ start elapsed h hrounds hwaiting =>
    have hsame : s'.state = s.state := hstate rfl
    rw [← hsame] at hwaiting ⊢
    exact .measured c p start elapsed h hrounds hwaiting
  | locking c _ start h => exact .locking c p start h
  | starting c _ start h => exact .starting c p start h
  | checking c _ start h hrounds => exact .checking c p start h hrounds
  | parked c _ start remaining h hrounds hne => exact .parked c p start remaining h hrounds hne
  | woken c _ start status h hrounds hne => exact .woken c p start status h hrounds hne
  | returned c _ start h hrounds hcleared hf => exact .returned c p start h hrounds hcleared hf
  | invokePanicked c _ start h hrounds hcleared hf =>
    exact .invokePanicked c p start h hrounds hcleared hf
  | evaluatePanicked c _ start h hrounds hwaiting =>
    exact .evaluatePanicked c p start h hrounds hwaiting
  | timedOut c _ start h hrounds hne => exact .timedOut c p start h hrounds hne
  | notifyGuarded timeout _ start => exact .notifyGuarded timeout p start
  | notifyParked timeout _ start remaining => exact .notifyParked timeout p start remaining
  | notifyWoken timeout _ start status => exact .notifyWoken timeout p start status
  | notifyLeaving timeout _ start status => exact .notifyLeaving timeout p start status
  | notifyReturned timeout _ start status => exact .notifyReturned timeout p start status
  | notifying c _ start h => exact .notifying c p start h
  | notified c _ start h => exact .notified c p start h
  | guarded _ start hguarded => exact .guarded p start hguarded
  | guardParked _ start remaining hguarded => exact .guardParked p start remaining hguarded
  | guardWoken _ start status hguarded => exact .guardWoken p start status hguarded
  | dropped _ start hguarded => exact .dropped p start hguarded

/-- Who leaves the wait set goes on with the same story. -/
theorem Told.rouses {i i' : Invocation T P R} {es : List (Mark (Deed T R))} (hes : Told s i es)
    (h : i.Rouses i') : Told s i' es := by
  rcases h with rfl | ⟨remaining, status, hphase, rfl⟩
  · exact hes
  · obtain ⟨c, p, start, phase⟩ := i
    obtain rfl : phase = .parked remaining := hphase
    cases hes with
    | parked _ _ _ _ hwaits hrounds hne => exact .woken c p start status hwaits hrounds hne
    | notifyParked timeout => exact .notifyWoken timeout p start status
    | guardParked _ _ _ hguarded => exact .guardWoken p start status hguarded

/-- So all stories are kept where some calls leave the wait set. -/
theorem storied_woken {log : List (Option ℕ × Mark (Deed T R))}
    (h : Storied Monitor.invocations Told s log) (hwoken : Woken s s') :
    Storied Monitor.invocations Told s' log := by
  refine h.shifts hwoken.length fun j i' hj => ?_
  obtain ⟨i, hi, hrouses⟩ := hwoken.rouses j i' hj
  exact ⟨i, hi, fun es hes => (hes.rouses hrouses).stays (fun _ => hwoken.state) i'.captures⟩

/-- **In every run, every call has its story.** -/
theorem storied_step (h : s.Exclusive) {log : List (Option ℕ × Mark (Deed T R))}
    (hlog : Storied Monitor.invocations Told s log) {a : Action T P R}
    (hstep : s.step a = some s') :
    Storied Monitor.invocations Told s' (log ++ watch s a s') := by
  rcases step_cases hstep with ⟨c, p, rfl, hs'⟩ |
    ⟨s₁, k, i, i', holder', state', marks, hwoken, -, hk, hturn, hs', hmarks⟩ |
    ⟨k, f, p, start, rfl, hk, hs'⟩ | ⟨k, status, c, p, start, remaining, rfl, hk, rfl⟩ |
    ⟨k, p, i, rfl, hk, hs'⟩ | ⟨time, rfl, hs'⟩
  · change Storied _ _ _ (log ++ [])
    rw [List.append_nil]
    refine hlog.begins (by rw [hs']) ?_ fun j u _ es hes =>
      hes.stays (fun _ => by rw [hs']) u.captures
    cases hbegins : (c.begins : Phase R) with
    | locking => exact .locking c p 0 hbegins
    | notifying => exact .notifying c p 0 hbegins
    | _ => cases c <;> cases hbegins
  · -- who takes a turn goes on with its own story, and changes the state only if it is inside
    have hexclusive := h.woken hwoken
    rw [hmarks, hs']
    refine (storied_woken hlog hwoken).moves marks hk rfl (fun es hes => hes.turn hturn _)
      fun j u hne hj es hes => hes.stays (fun hcritical => ?_) u.captures
    cases hi : i.phase.isCritical with
    | true => exact absurd hcritical (hexclusive.not_isCritical hk hi hj hne)
    | false => exact ((hturn.holder (hexclusive.holder_eq hk)).1 hi).1
  · change Storied _ _ _ (log ++ [.did (.accessed s.state (f s.state))].map fun e => (some k, e))
    have hsame : s'.invocations = s.invocations.set k ⟨.lock, p, start, .guarded⟩ := by
      obtain ⟨hlt, hi⟩ := List.getElem?_eq_some_iff.mp hk
      rw [hs', ← hi, List.set_getElem_self]
    refine hlog.moves _ hk hsame (fun es hes => ?_)
      fun j u hne hj es hes => hes.stays (fun hcritical => ?_) u.captures
    · cases hes with
      | guarded _ _ hguarded => exact .guarded p start (hguarded.access _ _)
    · exact absurd hcritical (h.not_isCritical hk rfl hj hne)
  · change Storied _ _ _ (log ++ [])
    rw [List.append_nil]
    exact storied_woken hlog (.of_set hk status)
  · change Storied _ _ _ (log ++ [].map fun e => (some k, e))
    refine hlog.moves [] hk (by rw [hs']; rfl) (fun es hes => ?_) fun j u _ _ es hes =>
      hes.stays (fun _ => by rw [hs']; rfl) u.captures
    rw [List.append_nil]
    exact hes.stays (fun _ => by rw [hs']; rfl) p
  · exact hlog.beside (by rw [hs']) [] fun j u _ es hes =>
      hes.stays (fun _ => by rw [hs']) u.captures

/-! ### Who is over stays over -/

/-- A call that is over takes no turn. -/
theorem Turn.not_isOver {i i' : Invocation T P R} {holder' : Option ℕ} {state' : T}
    {marks : List (Mark (Deed T R))} (h : Turn s k i i' holder' state' marks) :
    i.phase.isOver = false := by
  cases h <;> rfl

/-- **A call that is over stays over**, and nothing more is written of it. -/
theorem isOver_step {a : Action T P R} (hstep : s.step a = some s') {i : Invocation T P R}
    (hk : s.invocations[k]? = some i) (hover : i.phase.isOver = true) :
    (∃ i', s'.invocations[k]? = some i' ∧ i'.phase.isOver = true) ∧
      story (some k) (watch s a s') = [] := by
  have hparked : i.phase.isParked = false := by
    cases hphase : i.phase with
    | parked remaining =>
      rw [hphase] at hover
      cases hover
    | _ => rfl
  rcases step_cases hstep with ⟨c, p, rfl, rfl⟩ |
    ⟨s₁, j, u, u', holder', state', marks, hwoken, -, hj, hturn, rfl, hmarks⟩ |
    ⟨j, f, p, start, rfl, hj, rfl⟩ | ⟨j, status, c, p, start, remaining, rfl, hj, rfl⟩ |
    ⟨j, p, u, rfl, hj, rfl⟩ | ⟨time, rfl, rfl⟩
  · exact ⟨⟨i, getElem?_concat_of_some hk _, hover⟩, rfl⟩
  · have hne : j ≠ k := by
      rintro rfl
      obtain rfl := Option.some.inj (hj.symm.trans (hwoken.getElem? hk hparked))
      exact absurd (hturn.not_isOver.symm.trans hover) (by simp)
    rw [hmarks, story_map_ne (by simpa using hne)]
    exact ⟨⟨i, (List.getElem?_set_ne hne).trans (hwoken.getElem? hk hparked), hover⟩, rfl⟩
  · have hne : j ≠ k := by
      rintro rfl
      obtain rfl := Option.some.inj (hj.symm.trans hk)
      cases hover
    exact ⟨⟨i, hk, hover⟩, story_map_ne (by simpa using hne) [_]⟩
  · exact ⟨⟨i, (Woken.of_set hj status).getElem? hk hparked, hover⟩, rfl⟩
  · refine ⟨?_, rfl⟩
    rcases getElem?_set_kept hj hk { u with captures := p } with ⟨rfl, rfl⟩ | ⟨-, hstill⟩
    · exact ⟨{ i with captures := p }, getElem?_set_of_some hj _, hover⟩
    · exact ⟨i, hstill, hover⟩
  · exact ⟨⟨i, hk, hover⟩, rfl⟩

/-- So whatever is written later is written of calls that are not over yet. -/
theorem isOver_later {first : T} {log : List (Option ℕ × Mark (Deed T R))}
    {t : Monitor T P R × List (Option ℕ × Mark (Deed T R))}
    (h : ((machine P R first).observe watch).Later (s, log) t) {i : Invocation T P R}
    (hk : s.invocations[k]? = some i) (hover : i.phase.isOver = true) :
    (∃ i', t.1.invocations[k]? = some i' ∧ i'.phase.isOver = true) ∧
      ∃ more, t.2 = log ++ more ∧ story (some k) more = [] := by
  induction h with
  | refl => exact ⟨⟨i, hk, hover⟩, [], (List.append_nil log).symm, rfl⟩
  | tail _ hlast ih =>
    obtain ⟨⟨i', hk', hover'⟩, more, hlog, hsilent⟩ := ih
    obtain ⟨a, ha⟩ := hlast
    obtain ⟨hstep, hwatch⟩ := Machine.observe_step ha
    obtain ⟨hstill, hnone⟩ := isOver_step hstep hk' hover'
    refine ⟨hstill, more ++ watch _ a _, by rw [hwatch, hlog, List.append_assoc], ?_⟩
    rw [story_append, hsilent, hnone, List.append_nil]

/-! ### The sections of a monitor are exact -/

/-- In every run nobody else is inside, the log is serial, and every call has its story. -/
theorem kept_of_reach {first : T} {log : List (Option ℕ × Mark (Deed T R))}
    (hs : ((machine P R first).observe watch).Reach (s, log)) :
    s.Exclusive ∧ Serial Deed.Does first log (heldBy s.holder) s.state ∧
      Storied Monitor.invocations Told s log := by
  refine (Machine.observe_invariant (M := machine P R first) (p := fun _ _ => True)
    (I := fun s log => s.Exclusive ∧ Serial Deed.Does first log (heldBy s.holder) s.state ∧
      Storied Monitor.invocations Told s log) ?_ ?_ hs).2
  · rintro s ⟨rfl, hfree, hnil⟩
    refine ⟨fun j => ?_, ?_, .start hnil⟩
    · simp [Monitor.inside, hnil, hfree]
    · rw [hfree]
      exact .nil
  · rintro s a s' log _ ⟨hexclusive, hserial, hstoried⟩ _ hstep
    refine ⟨hexclusive.step hstep, ?_, storied_step hexclusive hstoried hstep⟩
    rcases step_cases hstep with ⟨c, p, rfl, rfl⟩ |
      ⟨s₁, k, i, i', holder', state', marks, hwoken, -, hk, hturn, rfl, hmarks⟩ |
      ⟨k, f, p, start, rfl, hk, rfl⟩ | ⟨k, status, c, p, start, remaining, rfl, hk, rfl⟩ |
      ⟨k, p, i, rfl, hk, rfl⟩ | ⟨time, rfl, rfl⟩
    · simpa [watch] using hserial
    · rw [hmarks]
      rw [← hwoken.holder, ← hwoken.state] at hserial
      exact hturn.serial ((hexclusive.woken hwoken).holder_eq hk) hserial
    · have hholder : s.holder = some k := hexclusive.holder_eq hk rfl
      rw [hholder] at hserial
      simp only [hholder]
      exact hserial.acts ⟨rfl, rfl⟩
    · simpa [watch, Monitor.set] using hserial
    · simpa [watch, Monitor.set] using hserial
    · simpa [watch] using hserial

/-- **A monitor runs its sections one after the other, and each as it is called for.** In every
run around a monitor, with any number of calls of any of its methods, and of guards that are used
and waited with: the log of what is done with the mutex is serial and ends in the protected state
and its holder, no section in it is broken into by anybody else, and every call has its story.
Whatever is written later is written of calls that are not over yet, so that the order of the log
is the one in which the calls were made and returned. -/
theorem sections_of_reach {first : T} {log : List (Option ℕ × Mark (Deed T R))}
    (hs : ((machine P R first).observe watch).Reach (s, log)) :
    Serial Deed.Does first log (heldBy s.holder) s.state ∧
    (∀ k before during after,
      log = before ++ (some k, .entered .exclusive) :: (during ++ after) →
      (some k, .left) ∉ during → ∀ e ∈ during, e.1 = some k) ∧
    (∀ (k : ℕ) i, s.invocations[k]? = some i → Told s i (story (some k) log)) ∧
    ∀ t log', ((machine P R first).observe watch).Later (s, log) (t, log') →
      ∃ more, log' = log ++ more ∧ ∀ (k : ℕ) i, s.invocations[k]? = some i →
        i.phase.isOver = true → story (some k) more = [] := by
  obtain ⟨-, hserial, hstoried⟩ := kept_of_reach hs
  refine ⟨hserial, fun k before during after heq hduring => (hserial.undisturbed heq hduring).1 rfl,
    hstoried.told, fun t log' hlater => ?_⟩
  obtain ⟨-, more, rfl⟩ := Machine.observe_later hlater
  refine ⟨more, rfl, fun k i hk hover => ?_⟩
  obtain ⟨-, more', heq, hsilent⟩ := isOver_later hlater hk hover
  rw [List.append_cancel_left heq]
  exact hsilent

/-- Somebody waits until a number is not zero. Another thread adds three to it and notifies all, and
the first takes one away from it. -/
theorem sections_of_reach_counted :
    ∃ (s : Monitor ℕ Unit ℕ) (log : List (Option ℕ × Mark (Deed ℕ ℕ))),
      Serial Deed.Does 0 log (heldBy none) 2 ∧
      s.invocations.map Invocation.phase =
        [.returned (.value 3), .returned (.value 0), .returned .unit] ∧
      (∀ i, s.invocations[0]? = some i → Told s i (story (some 0) log)) ∧
      story (some 0) log = [.entered .exclusive, .did (.evaluated 0 (some true)), .left,
        .entered .exclusive, .did (.evaluated 3 (some false)), .did (.invoked 3 (some 3) 2),
        .left] := by
  obtain ⟨⟨s, log⟩, hs, hp⟩ := Machine.exists_reachVia_of_exec
    (M := (machine Unit ℕ (0 : ℕ)).observe watch) (fun _ _ => True) (fun _ _ => true)
    (fun _ _ _ => trivial) (s := (⟨0, none, 0, []⟩, [])) ⟨⟨rfl, rfl, rfl⟩, rfl⟩
    [.call (.waitUntil (fun _ n => (some (n != 0), ())) fun _ n => (some n, n - 1)) (),
      .next 0, .next 0, .next 0, .call (.write fun _ n => (some n, n + 3)) (), .next 1, .next 1,
      .call .notifyAll (), .next 2, .next 0, .next 0, .next 0]
    (fun t => decide (t.1.state = 2 ∧ t.1.holder = none ∧ t.1.invocations.map Invocation.phase =
      [.returned (.value 3), .returned (.value 0), .returned .unit] ∧
      story (some 0) t.2 = [.entered .exclusive, .did (.evaluated 0 (some true)), .left,
        .entered .exclusive, .did (.evaluated 3 (some false)), .did (.invoked 3 (some 3) 2),
        .left])) (by decide)
  obtain ⟨hstate, hholder, hphases, hstory⟩ := of_decide_eq_true hp
  obtain ⟨hserial, -, htold, -⟩ := sections_of_reach hs
  simp only at hstate hholder
  rw [hstate, hholder] at hserial
  exact ⟨s, log, hserial, hphases, htold 0, hstory⟩

end WaitSet

end Lock

end QubitConcurrent
