import QubitConcurrent.Lib.History
import QubitConcurrent.TaskHandle.OneShot

/-!
# What `start_and_complete` answers

`start_and_complete` is `start`, the closure, and `complete`, and the lock is free in between.
`start` asks only whether the task is completed, so it may be won by several calls; and the answer
of `complete` is not looked at, so the call answers `true` whatever has become of its value.

What the closures have returned the state does not tell; an observer writes it down
(`QubitConcurrent.TaskHandle.Task.produced`). With that, the calls are truthful
(`QubitConcurrent.TaskHandle.Truthful`) exactly as long as no closure begins after another one and
none returns to a task that somebody else has completed.
-/

namespace QubitConcurrent

namespace TaskHandle

variable {R E W : Type} {t t' : Task R E W} {a : Action R E W} {log : List (ℕ × TaskResult R E)}

/-! ### Closures and their values -/

/-- What the call answers, or is going to answer; there is nothing to answer inside a closure. -/
def Call.reply? : Call W → Option Reply
  | executing => none
  | notify _ reply | wake _ reply | returned reply => some reply

/-- Whether the call has executed its closure, or is inside. -/
def Call.hasRun (c : Call W) : Bool :=
  match c.reply? with
  | none | some (.startAndComplete true) | some .unwound => true
  | _ => false

/-- The observer writes down what the closures return. -/
def Task.produced (_ : Task R E W) (a : Action R E W) (_ : Task R E W) :
    List (ℕ × TaskResult R E) :=
  match a with
  | .taskReturns k result => [(k, result)]
  | _ => []

/-- The result is delivered through the handle: it was handed out, or is there to be. -/
def Task.Delivers (t : Task R E W) (result : TaskResult R E) : Prop :=
  t.inner.result = some result ∨ .ready result ∈ t.trace ∨ .got result ∈ t.trace

/-- The result was published. -/
def Task.Published (t : Task R E W) (result : TaskResult R E) : Prop :=
  ∃ kind, .finish kind result true ∈ t.trace

/-- **There is a single winner, and the calls tell the truth.** -/
structure Truthful (t : Task R E W) (log : List (ℕ × TaskResult R E)) : Prop where
  /-- At most one closure is executed. -/
  single : t.calls.countP Call.hasRun ≤ 1
  /-- A call returns `true` exactly if its closure was executed and what it returned is
  delivered. -/
  truth : ∀ k answer, t.calls[k]? = some (.returned (.startAndComplete answer)) →
    (answer = true ↔ ∃ result, (k, result) ∈ log ∧ t.Delivers result)

/-- The steps the calls may take: a closure begins only if there was none before, and returns only
if nobody has completed the task with something else. -/
def Action.Sole (t : Task R E W) : Action R E W → Prop
  | .startAndComplete => t.inner.completed = true ∨ t.calls.countP Call.hasRun = 0
  | .taskReturns _ result => t.inner.completed = true → t.Delivers result
  | _ => True

/-! ### What a step does to the closures -/

/-- **What a step does to the calls**, as far as closures are concerned. -/
inductive Ran (t t' : Task R E W) : Action R E W → Prop
  /-- Nothing happens to the calls. -/
  | aside {a : Action R E W} (hstart : a ≠ .startAndComplete)
      (hreturns : ∀ k r, a ≠ .taskReturns k r) (hcalls : t'.calls = t.calls) : Ran t t' a
  /-- A call is made that executes no closure. -/
  | other {a : Action R E W} (c : Call W) (hrun : c.hasRun = false)
      (hstart : a = .startAndComplete → t.inner.completed = true)
      (hreturns : ∀ k r, a ≠ .taskReturns k r) (hcalls : t'.calls = t.calls ++ [c]) : Ran t t' a
  /-- A call has won the start. -/
  | begins (hcompleted : t.inner.completed = false) (hcalls : t'.calls = t.calls ++ [.executing]) :
      Ran t t' .startAndComplete
  /-- A closure returns. -/
  | returns (k : ℕ) (result : TaskResult R E) (c : Call W) (hk : t.calls[k]? = some .executing)
      (hreply : c.reply? = some (.startAndComplete true))
      (hfinish : (t.inner.completed = false ∨ c.isReturned = false) →
        .finish .complete result true ∈ t'.trace)
      (hcompleted : t'.inner.completed = true) (hcalls : t'.calls = t.calls.set k c) :
      Ran t t' (.taskReturns k result)
  /-- A closure unwinds. -/
  | unwinds (k : ℕ) (hk : t.calls[k]? = some .executing)
      (hcalls : t'.calls = t.calls.set k (.returned .unwound)) : Ran t t' (.taskUnwinds k)
  /-- A call that has published goes on, with the same answer. -/
  | moves {a : Action R E W} (k : ℕ) (c c' : Call W) (reply : Reply) (hk : t.calls[k]? = some c)
      (hlive : c.isReturned = false) (hreply : c.reply? = some reply)
      (hreply' : c'.reply? = some reply) (hstart : a ≠ .startAndComplete)
      (hreturns : ∀ k r, a ≠ .taskReturns k r) (hcalls : t'.calls = t.calls.set k c') : Ran t t' a

/-- A call of `complete` or `cancel` executes no closure. -/
theorem hasRun_afterFinish {reply : Bool → Reply}
    (h : ∀ published, (Call.returned (reply published) : Call W).hasRun = false)
    (answer : Bool × Option W) : (Task.afterFinish reply answer).hasRun = false := by
  rcases answer with ⟨- | -, waker⟩
  · exact h false
  · exact h true

/-- What the call answers is what `finish` is to answer. -/
theorem reply_afterFinish (reply : Bool → Reply) (answer : Bool × Option W) :
    (Task.afterFinish reply answer).reply? = some (reply answer.1) := by
  rcases answer with ⟨- | -, waker⟩ <;> rfl

/-- A cancellation makes a call that executes no closure. -/
theorem ran_cancelStep (ha : a = .cancel ∨ a = .handleCancel) : Ran t t.cancelStep a := by
  refine .other _ (hasRun_afterFinish (fun _ => rfl) t.inner.cancel.1) ?_ ?_ rfl
  · rintro rfl
    rcases ha with h | h <;> cases h
  · rintro k r rfl
    rcases ha with h | h <;> cases h

/-- A round of `get` leaves the calls alone. -/
theorem calls_getStep (t : Task R E W) : t.getStep.calls = t.calls := by
  rw [Task.getStep]
  split <;> rfl

/-- `poll` leaves the calls alone. -/
theorem calls_pollStep (waker : W) (t : Task R E W) : (t.pollStep waker).calls = t.calls := by
  rw [Task.pollStep]
  split <;> rfl

/-- `start_and_complete` begins its closure, unless the task is completed. -/
theorem ran_startAndComplete (t : Task R E W) :
    Ran t ({ t with inner := t.inner.start.2 }.addCall
      (if t.inner.start.1 then .executing else .returned (.startAndComplete false))
      (.start t.inner.start.1)) .startAndComplete := by
  cases hcompleted : t.inner.completed with
  | true =>
    have hstart : t.inner.start = (false, t.inner) := by simp [TaskHandleInner.start, hcompleted]
    rw [hstart]
    exact .other _ rfl (fun _ => hcompleted) (by simp) rfl
  | false =>
    have hstart : t.inner.start.1 = true := by simp [TaskHandleInner.start, hcompleted]
    rw [hstart]
    exact .begins hcompleted rfl

/-- A closure returns: its value is published, unless the task is completed. -/
theorem ran_taskReturns {k : ℕ} (hk : t.calls[k]? = some .executing) (result : TaskResult R E) :
    Ran t { t with
      inner := (t.inner.complete result).2
      calls := t.calls.set k
        (Task.afterFinish (fun _ => .startAndComplete true) (t.inner.complete result).1)
      trace := t.trace ++ [.finish .complete result (t.inner.complete result).1.1] }
      (.taskReturns k result) := by
  refine .returns k result _ hk (reply_afterFinish _ _) ?_
    (TaskHandleInner.completed_complete result t.inner) rfl
  rcases t.inner.finish_cases result fun _ => true with h | ⟨hcompleted, -, h⟩
  · have h' : t.inner.complete result = ((false, none), t.inner) := h
    rw [h']
    rintro (hopen | hlive)
    · rw [TaskHandleInner.complete, TaskHandleInner.finish, hopen] at h'
      cases h'
    · cases hlive
  · have h' : t.inner.complete result = ((true, t.inner.waker), { t.inner with
        result := some result, completed := true, done := true, waker := none }) := h
    rw [h']
    exact fun _ => List.mem_append_right _ (List.mem_singleton_self _)

/-- **Every step is one of these.** -/
theorem step_ran (hstep : t.step a = some t') : Ran t t' a := by
  cases a with
  | start =>
    obtain rfl := Option.some.inj hstep
    exact .other _ rfl (by simp) (by simp) rfl
  | complete result =>
    obtain rfl := Option.some.inj hstep
    exact .other _ (hasRun_afterFinish (fun _ => rfl) _) (by simp) (by simp) rfl
  | cancel =>
    obtain rfl := Option.some.inj hstep
    exact ran_cancelStep (Or.inl rfl)
  | startAndComplete =>
    obtain rfl := Option.some.inj hstep
    exact ran_startAndComplete t
  | taskReturns k result =>
    simp only [Task.step] at hstep
    split at hstep
    · next hk =>
      obtain rfl := Option.some.inj hstep
      exact ran_taskReturns hk result
    · exact absurd hstep (by simp)
  | taskUnwinds k =>
    simp only [Task.step] at hstep
    split at hstep
    · next hk =>
      obtain rfl := Option.some.inj hstep
      exact .unwinds k hk rfl
    · exact absurd hstep (by simp)
  | notify k =>
    simp only [Task.step] at hstep
    split at hstep
    · next waker reply hk =>
      obtain rfl := Option.some.inj hstep
      exact .moves k _ _ reply hk rfl rfl (by cases waker <;> rfl) (by simp) (by simp) rfl
    · exact absurd hstep (by simp)
  | wake k =>
    simp only [Task.step] at hstep
    split at hstep
    · next waker reply hk =>
      obtain rfl := Option.some.inj hstep
      exact .moves k _ _ reply hk rfl rfl rfl (by simp) (by simp) rfl
    · exact absurd hstep (by simp)
  | handleCancel =>
    simp only [Task.step] at hstep
    split_ifs at hstep
    obtain rfl := Option.some.inj hstep
    exact ran_cancelStep (Or.inr rfl)
  | isDone | wakeGetter =>
    simp only [Task.step] at hstep
    split_ifs at hstep
    obtain rfl := Option.some.inj hstep
    exact .aside (by simp) (by simp) rfl
  | poll waker =>
    simp only [Task.step] at hstep
    split_ifs at hstep
    obtain rfl := Option.some.inj hstep
    exact .aside (by simp) (by simp) (calls_pollStep waker t)
  | get | resumeGetter =>
    simp only [Task.step] at hstep
    split_ifs at hstep
    obtain rfl := Option.some.inj hstep
    exact .aside (by simp) (by simp) (calls_getStep t)

namespace Ran

/-- **The closures are counted where they begin.** -/
theorem count (h : Ran t t' a) :
    (t'.calls.countP Call.hasRun = t.calls.countP Call.hasRun ∧
      (a = .startAndComplete → t.inner.completed = true)) ∨
    (t'.calls.countP Call.hasRun = t.calls.countP Call.hasRun + 1 ∧ a = .startAndComplete ∧
      t.inner.completed = false) := by
  cases h with
  | aside hstart hreturns hcalls => exact Or.inl ⟨by rw [hcalls], fun ha => absurd ha hstart⟩
  | other c hrun hstart hreturns hcalls =>
    exact Or.inl ⟨by rw [hcalls]; simp [hrun], hstart⟩
  | begins hcompleted hcalls =>
    refine Or.inr ⟨?_, rfl, hcompleted⟩
    rw [hcalls, List.countP_append]
    rfl
  | returns k result c hk hreply hfinish hcompleted hcalls =>
    refine Or.inl ⟨?_, nofun⟩
    have hrun : c.hasRun = true := by rw [Call.hasRun, hreply]
    obtain ⟨n, hn, hn'⟩ := countP_set_toNat Call.hasRun (b := c) hk
    rw [hcalls, hn, hn', hrun]
    rfl
  | unwinds k hk hcalls =>
    refine Or.inl ⟨?_, nofun⟩
    obtain ⟨n, hn, hn'⟩ := countP_set_toNat Call.hasRun (b := .returned .unwound) hk
    rw [hcalls, hn, hn']
    rfl
  | moves k c c' reply hk hlive hreply hreply' hstart hreturns hcalls =>
    refine Or.inl ⟨?_, fun ha => absurd ha hstart⟩
    have hrun : c'.hasRun = c.hasRun := by rw [Call.hasRun, Call.hasRun, hreply, hreply']
    obtain ⟨n, hn, hn'⟩ := countP_set_toNat Call.hasRun (b := c') hk
    rw [hcalls, hn, hn', hrun]

/-- What a call is going to answer does not change. -/
theorem kept (h : Ran t t' a) {k : ℕ} {c : Call W} {reply : Reply} (hk : t.calls[k]? = some c)
    (hreply : c.reply? = some reply) :
    ∃ c', t'.calls[k]? = some c' ∧ c'.reply? = some reply := by
  have hset : ∀ (n : ℕ) (d d' : Call W), t.calls[n]? = some d →
      (n = k → d.reply? = some reply → d'.reply? = some reply) →
      ∃ c', (t.calls.set n d')[k]? = some c' ∧ c'.reply? = some reply := by
    intro n d d' hn hd
    rcases getElem?_set_kept hn hk d' with ⟨rfl, rfl⟩ | ⟨-, hstill⟩
    · exact ⟨d', getElem?_set_of_some hn d', hd rfl hreply⟩
    · exact ⟨c, hstill, hreply⟩
  cases h with
  | aside hstart hreturns hcalls => exact ⟨c, hcalls ▸ hk, hreply⟩
  | other d hrun hstart hreturns hcalls =>
    exact ⟨c, hcalls ▸ getElem?_concat_of_some hk d, hreply⟩
  | begins hcompleted hcalls => exact ⟨c, hcalls ▸ getElem?_concat_of_some hk _, hreply⟩
  | returns n result d hn hreply' hfinish hcompleted hcalls =>
    exact hcalls ▸ hset n _ d hn fun _ h => absurd h nofun
  | unwinds n hn hcalls => exact hcalls ▸ hset n _ _ hn fun _ h => absurd h nofun
  | moves n d d' reply' hn hlive hd hd' hstart hreturns hcalls =>
    exact hcalls ▸ hset n d d' hn fun _ h => by rw [hd', ← hd, h]

/-- **A call that is going to answer `true`** was going to before, and perhaps had not returned yet,
or its closure returns in this step. -/
theorem answers (h : Ran t t' a) {k : ℕ} {c' : Call W} (hk : t'.calls[k]? = some c')
    (hreply : c'.reply? = some (.startAndComplete true)) :
    (∃ c, t.calls[k]? = some c ∧ c.reply? = some (.startAndComplete true) ∧
      (c'.isReturned = false → c.isReturned = false)) ∨
    ∃ result, a = .taskReturns k result ∧
      (c'.isReturned = false → .finish .complete result true ∈ t'.trace) := by
  cases h with
  | aside hstart hreturns hcalls => exact Or.inl ⟨c', hcalls ▸ hk, hreply, id⟩
  | other d hrun hstart hreturns hcalls =>
    rcases getElem?_concat_cases (hcalls ▸ hk) with hold | ⟨-, rfl⟩
    · exact Or.inl ⟨c', hold, hreply, id⟩
    · rw [Call.hasRun, hreply] at hrun
      cases hrun
  | begins hcompleted hcalls =>
    rcases getElem?_concat_cases (hcalls ▸ hk) with hold | ⟨-, rfl⟩
    · exact Or.inl ⟨c', hold, hreply, id⟩
    · cases hreply
  | returns n result d hn hreply' hfinish hcompleted hcalls =>
    rw [hcalls] at hk
    rcases getElem?_set_cases hn hk with ⟨rfl, rfl⟩ | ⟨-, hold⟩
    · exact Or.inr ⟨result, rfl, fun hlive => hfinish (Or.inr hlive)⟩
    · exact Or.inl ⟨c', hold, hreply, id⟩
  | unwinds n hn hcalls =>
    rw [hcalls] at hk
    rcases getElem?_set_cases hn hk with ⟨-, rfl⟩ | ⟨-, hold⟩
    · cases hreply
    · exact Or.inl ⟨c', hold, hreply, id⟩
  | moves n d d' reply' hn hlive hd hd' hstart hreturns hcalls =>
    rw [hcalls] at hk
    rcases getElem?_set_cases hn hk with ⟨rfl, rfl⟩ | ⟨-, hold⟩
    · exact Or.inl ⟨d, hn, by rw [hd, ← hd', hreply], fun _ => hlive⟩
    · exact Or.inl ⟨c', hold, hreply, id⟩

end Ran

/-! ### Publication and delivery -/

/-- No answer is taken back. -/
theorem Change.trace (h : Change t t') : ∃ es, t'.trace = t.trace ++ es := by
  cases h with
  | quiet _ htrace => exact ⟨[], by rw [htrace, List.append_nil]⟩
  | isDone _ htrace | startLost _ _ htrace | startWon _ _ htrace | finishLost _ _ _ htrace
  | published _ _ _ _ _ htrace | pending _ _ _ htrace | ready _ _ _ htrace | got _ _ _ htrace
  | missing _ _ _ _ htrace => exact ⟨_, htrace⟩

/-- What was published stays published, -/
theorem Change.published_mono (h : Change t t') {r : TaskResult R E} (hr : t.Published r) :
    t'.Published r := by
  obtain ⟨es, htrace⟩ := h.trace
  obtain ⟨kind, hkind⟩ := hr
  exact ⟨kind, htrace ▸ List.mem_append_left es hkind⟩

/-- and once the task is completed nothing else is. -/
theorem Change.published_iff (h : Change t t') (hcompleted : t.inner.completed = true)
    {r : TaskResult R E} : t'.Published r ↔ t.Published r := by
  refine ⟨?_, h.published_mono⟩
  rintro ⟨kind, hkind⟩
  refine ⟨kind, ?_⟩
  cases h with
  | quiet _ htrace => rwa [htrace] at hkind
  | published _ _ hopen => exact absurd (hcompleted.symm.trans hopen) (by simp)
  | isDone _ htrace | startLost _ _ htrace | startWon _ _ htrace | finishLost _ _ _ htrace
  | pending _ _ _ htrace | ready _ _ _ htrace | got _ _ _ htrace | missing _ _ _ _ htrace =>
    rw [htrace] at hkind
    simpa using hkind

/-- **What is published is delivered**: it is in the cell until it is handed out. -/
theorem Change.delivers (h : Change t t') (hshot : OneShot t)
    (hdelivers : ∀ r, t.Published r → t.Delivers r) {r : TaskResult R E} (hr : t'.Published r) :
    t'.Delivers r := by
  -- the cell and what was handed out, where nothing is published
  have hold : t'.inner.result = t.inner.result → t.Published r → t'.Delivers r := by
    intro hresult hr
    obtain ⟨es, htrace⟩ := h.trace
    rcases hdelivers r hr with hstored | hready | hgot
    · exact Or.inl (hresult.trans hstored)
    · exact Or.inr (Or.inl (htrace ▸ List.mem_append_left es hready))
    · exact Or.inr (Or.inr (htrace ▸ List.mem_append_left es hgot))
  have htaken : ∀ (result : TaskResult R E) (e : Event R E), t.inner.result = some result →
      t'.trace = t.trace ++ [e] → e = .ready result ∨ e = .got result → t.Published r →
      t'.Delivers r := by
    intro result e hresult htrace he hr
    rw [Task.Delivers, htrace]
    rcases hdelivers r hr with hstored | hready | hgot
    · obtain rfl := Option.some.inj (hresult.symm.trans hstored)
      rcases he with rfl | rfl
      · exact Or.inr (Or.inl (List.mem_append_right _ (List.mem_singleton_self _)))
      · exact Or.inr (Or.inr (List.mem_append_right _ (List.mem_singleton_self _)))
    · exact Or.inr (Or.inl (List.mem_append_left _ hready))
    · exact Or.inr (Or.inr (List.mem_append_left _ hgot))
  have hsame : ∀ e : Event R E, t'.trace = t.trace ++ [e] → e.publishes = false →
      t.Published r := by
    rintro e htrace he
    obtain ⟨kind, hkind⟩ := hr
    rw [htrace] at hkind
    rcases List.mem_append.mp hkind with hkind | hkind
    · exact ⟨kind, hkind⟩
    · rw [← List.mem_singleton.mp hkind] at he
      cases he
  cases h with
  | quiet hinner htrace => exact hold (by rw [hinner]) (by rwa [Task.Published, ← htrace])
  | published kind result hcompleted hcancel hinner htrace =>
    obtain ⟨kind', hkind⟩ := hr
    rw [htrace] at hkind
    rcases List.mem_append.mp hkind with hkind | hkind
    · exact absurd (hshot.unpublished hcompleted _ hkind) (by simp [Event.publishes])
    · obtain ⟨-, rfl, -⟩ := Event.finish.inj (List.mem_singleton.mp hkind)
      exact Or.inl (by rw [hinner])
  | ready result hresult hinner htrace =>
    exact htaken result _ hresult htrace (Or.inl rfl) (hsame _ htrace rfl)
  | got result hresult hinner htrace =>
    exact htaken result _ hresult htrace (Or.inr rfl) (hsame _ htrace rfl)
  | isDone hinner htrace | startLost _ hinner htrace | startWon _ hinner htrace
  | finishLost _ _ hinner htrace | pending _ _ hinner htrace | missing _ _ _ hinner htrace =>
    exact hold (by rw [hinner]) (hsame _ htrace rfl)

/-- What is delivered was published. -/
theorem OneShot.published (h : OneShot t) {r : TaskResult R E} (hr : t.Delivers r) :
    t.Published r := by
  rcases hr with hstored | hready | hgot
  · exact h.stored r hstored
  · exact h.delivered _ hready r rfl
  · exact h.delivered _ hgot r rfl

/-! ### The calls and the values of their closures -/

/-- **What the answers of the calls have to do with what the closures returned.** -/
structure Answered (t : Task R E W) (log : List (ℕ × TaskResult R E)) : Prop where
  /-- The cell. -/
  oneShot : OneShot t
  /-- What is published is delivered. -/
  delivers : ∀ r, t.Published r → t.Delivers r
  /-- A call whose closure has returned is going to answer `true`, and the task is completed. -/
  logged : ∀ k r, (k, r) ∈ log → t.inner.completed = true ∧
    ∃ c, t.calls[k]? = some c ∧ c.reply? = some (.startAndComplete true)
  /-- The closure of a call that is going to answer `true` has returned, and until the call has
  returned it is known that it has published. -/
  answered : ∀ (k : ℕ) c, t.calls[k]? = some c → c.reply? = some (.startAndComplete true) →
    ∃ r, (k, r) ∈ log ∧ (c.isReturned = false → t.Published r)
  /-- A closure returns once. -/
  once : ∀ k r r', (k, r) ∈ log → (k, r') ∈ log → r = r'

namespace Answered

/-- **The calls are truthful** if one closure was executed at most, and what the closures have
returned was published. -/
theorem truthful_iff (h : Answered t log) :
    Truthful t log ↔ t.calls.countP Call.hasRun ≤ 1 ∧ ∀ k r, (k, r) ∈ log → t.Published r := by
  constructor
  · intro htruthful
    refine ⟨htruthful.single, fun k r hr => ?_⟩
    obtain ⟨-, c, hk, hreply⟩ := h.logged k r hr
    obtain ⟨r', hr', hlive⟩ := h.answered k c hk hreply
    obtain rfl := h.once k r r' hr hr'
    -- until the call returns it is known to have published; then its answer must be true
    cases c with
    | executing => cases hreply
    | notify waker reply | wake waker reply => exact hlive rfl
    | returned reply =>
      obtain rfl := Option.some.inj hreply
      obtain ⟨r', hr', hdelivers⟩ := (htruthful.truth k true hk).mp rfl
      obtain rfl := h.once k r r' hr hr'
      exact h.oneShot.published hdelivers
  · rintro ⟨hsingle, hpublished⟩
    refine ⟨hsingle, fun k answer hk => ⟨?_, ?_⟩⟩
    · rintro rfl
      obtain ⟨r, hr, -⟩ := h.answered k _ hk rfl
      exact ⟨r, hr, h.delivers r (hpublished k r hr)⟩
    · rintro ⟨r, hr, -⟩
      obtain ⟨-, c, hc, hreply⟩ := h.logged k r hr
      obtain rfl := Option.some.inj (hk.symm.trans hc)
      cases hreply
      rfl

/-- The values the closures returned are those of earlier, and that of the closure that returns. -/
theorem mem_produced {k : ℕ} {r : TaskResult R E} :
    (k, r) ∈ log ++ t.produced a t' ↔ (k, r) ∈ log ∨ a = .taskReturns k r := by
  rw [List.mem_append]
  refine or_congr Iff.rfl ?_
  cases a <;> simp [Task.produced, eq_comm]

/-- **Every step keeps the account.** -/
theorem step (h : Answered t log) (hstep : t.step a = some t') :
    Answered t' (log ++ t.produced a t') := by
  have hchange := step_change hstep
  have hran := step_ran hstep
  refine ⟨h.oneShot.change hchange, fun r => hchange.delivers h.oneShot h.delivers,
    fun k r hr => ?_, fun k c' hk hreply => ?_, fun k r r' hr hr' => ?_⟩
  · rcases mem_produced.mp hr with hold | rfl
    · obtain ⟨hcompleted, c, hk, hreply⟩ := h.logged k r hold
      exact ⟨hchange.completed hcompleted, hran.kept hk hreply⟩
    · cases hran with
      | aside _ hreturns | other _ _ _ hreturns | moves _ _ _ _ _ _ _ _ _ hreturns =>
        exact absurd rfl (hreturns k r)
      | returns _ _ c hk hreply _ hcompleted hcalls =>
        refine ⟨hcompleted, c, ?_, hreply⟩
        rw [hcalls, getElem?_set_of_some hk]
  · rcases hran.answers hk hreply with ⟨c, hc, hreply', hlive⟩ | ⟨r, rfl, hfinish⟩
    · obtain ⟨r, hr, hpublished⟩ := h.answered k c hc hreply'
      exact ⟨r, mem_produced.mpr (Or.inl hr),
        fun hlive' => hchange.published_mono (hpublished (hlive hlive'))⟩
    · exact ⟨r, mem_produced.mpr (Or.inr rfl), fun hlive => ⟨_, hfinish hlive⟩⟩
  · -- a closure that returns has not returned before
    have hfresh : ∀ r r', (k, r) ∈ log → a = .taskReturns k r' → False := by
      rintro r r' hold rfl
      obtain ⟨-, c, hk, hreply⟩ := h.logged k r hold
      cases hran with
      | aside _ hreturns | other _ _ _ hreturns | moves _ _ _ _ _ _ _ _ _ hreturns =>
        exact absurd rfl (hreturns k r')
      | returns _ _ _ hexecuting =>
        obtain rfl := Option.some.inj (hk.symm.trans hexecuting)
        cases hreply
    rcases mem_produced.mp hr with hold | ha <;> rcases mem_produced.mp hr' with hold' | ha'
    · exact h.once k r r' hold hold'
    · exact (hfresh r r' hold ha').elim
    · exact (hfresh r' r hold' ha).elim
    · exact (Action.taskReturns.inj (ha.symm.trans ha')).2

/-- **The calls stay truthful exactly at the steps they may take.** -/
theorem truthful_step (h : Answered t log) (hstep : t.step a = some t') :
    Truthful t' (log ++ t.produced a t') ↔ Truthful t log ∧ a.Sole t := by
  have hchange := step_change hstep
  have hran := step_ran hstep
  have hdelivers : ∀ r, t.Delivers r ↔ t.Published r :=
    fun r => ⟨h.oneShot.published, h.delivers r⟩
  rw [(h.step hstep).truthful_iff, h.truthful_iff]
  have hkept : (∀ k r, (k, r) ∈ log → t'.Published r) ↔ ∀ k r, (k, r) ∈ log → t.Published r :=
    forall₃_congr fun k r hr => hchange.published_iff (h.logged k r hr).1
  by_cases hreturns : ∃ k r, a = .taskReturns k r
  · -- a closure returns, so all depends on whether its value is published
    obtain ⟨k, r, rfl⟩ := hreturns
    have hcount : t'.calls.countP Call.hasRun = t.calls.countP Call.hasRun := by
      rcases hran.count with ⟨hcount, -⟩ | ⟨-, ha, -⟩
      · exact hcount
      · cases ha
    have hreturned : t'.Published r ↔ (Action.taskReturns k r).Sole t := by
      cases hcompleted : t.inner.completed with
      | true =>
        rw [hchange.published_iff hcompleted, Action.Sole, ← hdelivers]
        exact ⟨fun h _ => h, fun h => h hcompleted⟩
      | false =>
        refine iff_of_true ?_ fun hc => absurd (hcompleted.symm.trans hc) (by simp)
        cases hran with
        | aside _ hreturns | other _ _ _ hreturns | moves _ _ _ _ _ _ _ _ _ hreturns =>
          exact absurd rfl (hreturns k r)
        | returns _ _ _ _ _ hfinish => exact ⟨_, hfinish (Or.inl hcompleted)⟩
    rw [hcount, ← hreturned, ← hkept]
    constructor
    · rintro ⟨hsingle, hlog⟩
      exact ⟨⟨hsingle, fun k r hr => hlog k r (mem_produced.mpr (Or.inl hr))⟩,
        hlog k r (mem_produced.mpr (Or.inr rfl))⟩
    · rintro ⟨⟨hsingle, hlog⟩, hr⟩
      refine ⟨hsingle, fun j q hq => ?_⟩
      rcases mem_produced.mp hq with hold | ha
      · exact hlog j q hold
      · obtain ⟨-, rfl⟩ := Action.taskReturns.inj ha
        exact hr
  · -- nothing is returned, so all depends on whether a closure begins
    have hlog : (∀ k r, (k, r) ∈ log ++ t.produced a t' → t'.Published r) ↔
        ∀ k r, (k, r) ∈ log → t.Published r := by
      rw [← hkept]
      refine forall₂_congr fun k r => ?_
      rw [mem_produced, or_iff_left fun ha => hreturns ⟨k, r, ha⟩]
    rw [hlog]
    rcases hran.count with ⟨hcount, hstart⟩ | ⟨hcount, rfl, hcompleted⟩
    · have hsole : a.Sole t := by
        cases a with
        | startAndComplete => exact Or.inl (hstart rfl)
        | taskReturns k r => exact absurd ⟨k, r, rfl⟩ hreturns
        | _ => trivial
      rw [hcount, and_iff_left hsole]
    · have hsole : (Action.startAndComplete : Action R E W).Sole t ↔
          t.calls.countP Call.hasRun = 0 := by
        rw [Action.Sole, hcompleted, or_iff_right Bool.false_ne_true]
      rw [hcount, hsole]
      constructor
      · rintro ⟨hsingle, hlog⟩
        exact ⟨⟨by omega, hlog⟩, by omega⟩
      · rintro ⟨⟨-, hlog⟩, hnone⟩
        exact ⟨by omega, hlog⟩

/-- A new cell owes no account. -/
theorem new : Answered (Task.new : Task R E W) [] where
  oneShot := .new
  delivers := by simp [Task.Published, Task.new]
  logged := by simp
  answered := by simp [Task.new]
  once := by simp

/-- The account of every run. -/
theorem of_reach {u : Task R E W × List (ℕ × TaskResult R E)}
    (hu : ((machine R E W).observe Task.produced).Reach u) : Answered u.1 u.2 :=
  (Machine.observe_invariant (p := fun _ _ => True) (fun _ hinit => hinit ▸ new)
    (fun _ _ _ _ _ h _ hstep => h.step hstep) hu).2

end Answered

/-- **When there is a single winner, and the calls tell the truth.** In every run in which a
closure begins only if there was none before, and returns only if nobody has completed the task
with something else, at most one closure is executed, and a call returns `true` exactly if its
closure was executed and what it returned is delivered. And in every run at all it is with the
first other step that this ceases to be so, and for ever. -/
theorem truthful_of_reach :
    (∀ u : Task R E W × List (ℕ × TaskResult R E),
      ((machine R E W).observe Task.produced).ReachVia (fun u a => a.Sole u.1) u →
      Truthful u.1 u.2) ∧
    ∀ u : Task R E W × List (ℕ × TaskResult R E),
      ((machine R E W).observe Task.produced).Reach u → ∀ a u',
        ((machine R E W).observe Task.produced).step u a = some u' →
        (Truthful u'.1 u'.2 ↔ Truthful u.1 u.2 ∧ a.Sole u.1) := by
  constructor
  · intro u hu
    have hstep : ∀ (t : Task R E W) a t' log,
        (machine R E W).ReachVia (fun t a => a.Sole t) t → Answered t log ∧ Truthful t log →
        a.Sole t → t.step a = some t' →
        Answered t' (log ++ t.produced a t') ∧ Truthful t' (log ++ t.produced a t') :=
      fun t a t' log _ h hsole hstep =>
        ⟨h.1.step hstep, (h.1.truthful_step hstep).mpr ⟨h.2, hsole⟩⟩
    refine (Machine.observe_invariant ?_ hstep hu).2.2
    rintro t rfl
    exact ⟨.new, Answered.new.truthful_iff.mpr ⟨Nat.zero_le 1, by simp⟩⟩
  · intro u hu a u' hstep
    obtain ⟨hstep, hlog⟩ := Machine.observe_step hstep
    rw [hlog]
    exact (Answered.of_reach hu).truthful_step hstep

/-- A first call executes its closure and answers `true`; a second one comes too late, and answers
`false`. -/
theorem truthful_of_reach_two :
    ∃ u : Task ℕ ℕ ℕ × List (ℕ × TaskResult ℕ ℕ),
      u.1.calls.map Call.reply? = [some (.startAndComplete true), some (.startAndComplete false)] ∧
        Truthful u.1 u.2 := by
  obtain ⟨u, hu, hreplies⟩ := Machine.exists_reachVia_of_exec
    (M := (machine ℕ ℕ ℕ).observe Task.produced) (s := (.new, [])) (fun u a => a.Sole u.1)
    (fun u a => match a with
      | .startAndComplete => u.1.inner.completed || decide (u.1.calls.countP Call.hasRun = 0)
      | .taskReturns _ _ => !u.1.inner.completed
      | _ => true)
    (by
      rintro u (_ | _) h
      case startAndComplete => simpa [Action.Sole] using h
      case taskReturns =>
        intro hcompleted
        rw [hcompleted] at h
        cases h
      all_goals trivial)
    ⟨rfl, rfl⟩ [.startAndComplete, .taskReturns 0 (.ok 7), .startAndComplete, .notify 0, .get]
    (fun u => decide (u.1.calls.map Call.reply? =
      [some (.startAndComplete true), some (.startAndComplete false)])) (by decide)
  exact ⟨u, of_decide_eq_true hreplies, truthful_of_reach.1 u hu⟩

/-- **Two ways to be untruthful.** While a closure is executed somebody else completes the task with
7; the closure returns 42, the call answers `true`, and 7 is handed out. And two calls on one task
are both inside their closures. -/
theorem exists_reach_untruthful :
    (∃ u : Task ℕ ℕ ℕ × List (ℕ × TaskResult ℕ ℕ),
      ((machine ℕ ℕ ℕ).observe Task.produced).Reach u ∧
        u.1.calls.map Call.reply? = [some (.startAndComplete true), some .complete] ∧
        u.2 = [(0, .ok 42)] ∧ (∃ e ∈ u.1.trace, e.delivers = some (.ok 7)) ∧
        ¬Truthful u.1 u.2) ∧
    ∃ u : Task ℕ ℕ ℕ × List (ℕ × TaskResult ℕ ℕ),
      ((machine ℕ ℕ ℕ).observe Task.produced).Reach u ∧ u.1.calls.countP Call.hasRun = 2 ∧
        ¬Truthful u.1 u.2 := by
  constructor
  · obtain ⟨u, hu, h⟩ := Machine.exists_reachVia_of_exec
      (M := (machine ℕ ℕ ℕ).observe Task.produced) (s := (.new, [])) (fun _ _ => True)
      (fun _ _ => true) (fun _ _ _ => trivial) ⟨rfl, rfl⟩
      [.startAndComplete, .complete (.ok 7), .notify 1, .taskReturns 0 (.ok 42), .get]
      (fun u => decide (u.1.calls.map Call.reply? =
          [some (.startAndComplete true), some .complete] ∧ u.2 = [(0, .ok 42)]) &&
        (u.1.calls[0]?).any Call.isReturned &&
        u.1.trace.any fun e => decide (e.delivers = some (.ok 7))) (by decide)
    simp only [Bool.and_eq_true, decide_eq_true_eq, List.any_eq_true] at h
    obtain ⟨⟨⟨hreplies, hlog⟩, hreturned⟩, e, he, hdelivers⟩ := h
    refine ⟨u, hu, hreplies, hlog, ⟨e, he, hdelivers⟩, fun htruthful => ?_⟩
    have hanswered := Answered.of_reach hu
    -- 42 would have been published, and it was 7
    obtain ⟨kind, hkind⟩ := (hanswered.truthful_iff.mp htruthful).2 0 (.ok 42) (by rw [hlog]; simp)
    obtain ⟨kind', hkind'⟩ := hanswered.oneShot.delivered e he _ hdelivers
    exact absurd (hanswered.oneShot.eq_of_publishes hkind rfl hkind' rfl) (by simp)
  · obtain ⟨u, hu, h⟩ := Machine.exists_reachVia_of_exec
      (M := (machine ℕ ℕ ℕ).observe Task.produced) (s := (.new, [])) (fun _ _ => True)
      (fun _ _ => true) (fun _ _ _ => trivial) ⟨rfl, rfl⟩ [.startAndComplete, .startAndComplete]
      (fun u => decide (u.1.calls.countP Call.hasRun = 2)) (by decide)
    have htwo := of_decide_eq_true h
    exact ⟨u, hu, htwo, fun htruthful => absurd (htwo ▸ htruthful.single) (by decide)⟩

end TaskHandle

end QubitConcurrent
