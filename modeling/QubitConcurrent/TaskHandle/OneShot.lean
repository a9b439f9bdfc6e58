import QubitConcurrent.TaskHandle.Cell

/-!
# The cell is written once and read once

Every step on a cell is one of a few changes of the cell, with one more answer in the
trace (`QubitConcurrent.TaskHandle.Change`). What holds of the cell and of the trace
then follows change by change (`QubitConcurrent.TaskHandle.OneShot`): the flag and its
atomic mirror agree, a result is published at most once, what is handed out is what was
published, and the order of the answers is what it should be – after a publication no
start wins, after a start that won no cancellation does.

That `start` may win twice is no contradiction: it only asks whether the task is
completed.
-/

namespace QubitConcurrent

namespace TaskHandle

variable {R E W : Type} {t t' : Task R E W}

/-! ### What a step can do -/

/-- **The changes a step is one of.** The calls on the completion and the wakers woken
are left open. -/
inductive Change (t t' : Task R E W) : Prop
  /-- Nothing is asked of the cell; a waiting `get` may be woken up. -/
  | quiet (hinner : t'.inner = t.inner) (htrace : t'.trace = t.trace)
      (hhandle : t.handle = .consumed → t'.handle = .consumed)
  /-- `is_done` is answered. -/
  | isDone (hinner : t'.inner = t.inner) (htrace : t'.trace = t.trace ++ [.isDone t.inner.done])
      (hhandle : t'.handle = t.handle)
  /-- `start` comes too late. -/
  | startLost (hcompleted : t.inner.completed = true) (hinner : t'.inner = t.inner)
      (htrace : t'.trace = t.trace ++ [.start false]) (hhandle : t'.handle = t.handle)
  /-- `start` wins. -/
  | startWon (hcompleted : t.inner.completed = false)
      (hinner : t'.inner = { t.inner with started := true })
      (htrace : t'.trace = t.trace ++ [.start true]) (hhandle : t'.handle = t.handle)
  /-- `finish` comes too late, or is a `cancel` of a started task. -/
  | finishLost (kind : FinishKind) (result : TaskResult R E) (hinner : t'.inner = t.inner)
      (htrace : t'.trace = t.trace ++ [.finish kind result false]) (hhandle : t'.handle = t.handle)
  /-- `finish` publishes. -/
  | published (kind : FinishKind) (result : TaskResult R E) (hcompleted : t.inner.completed = false)
      (hcancel : kind = .cancel → t.inner.started = false ∧ result = .error .cancelled)
      (hinner : t'.inner = { t.inner with
        result := some result, completed := true, done := true, waker := none })
      (htrace : t'.trace = t.trace ++ [.finish kind result true]) (hhandle : t'.handle = t.handle)
  /-- `poll` finds nothing and leaves its waker. -/
  | pending (waker : W) (hcompleted : t.inner.completed = false)
      (hinner : t'.inner = { t.inner with waker := some waker })
      (htrace : t'.trace = t.trace ++ [.pending]) (hhandle : t'.handle = t.handle)
  /-- `poll` takes the result. -/
  | ready (result : TaskResult R E) (hresult : t.inner.result = some result)
      (hinner : t'.inner = { t.inner with result := none })
      (htrace : t'.trace = t.trace ++ [.ready result]) (hhandle : t'.handle = t.handle)
  /-- `get` takes the result. -/
  | got (result : TaskResult R E) (hresult : t.inner.result = some result)
      (hinner : t'.inner = { t.inner with result := none })
      (htrace : t'.trace = t.trace ++ [.got result]) (hhandle : t'.handle = .consumed)
  /-- `poll` or `get` finds the result gone. -/
  | missing (hcompleted : t.inner.completed = true) (hresult : t.inner.result = none)
      (hlive : t.handle ≠ .consumed) (hinner : t'.inner = t.inner)
      (htrace : t'.trace = t.trace ++ [.missing])

/-- What the critical section of `finish` does, read out. -/
theorem TaskHandleInner.finish_cases (result : TaskResult R E)
    (canFinish : TaskHandleInner R E W → Bool) (c : TaskHandleInner R E W) :
    (c.finish result canFinish = ((false, none), c)) ∨
    (c.completed = false ∧ canFinish c = true ∧ c.finish result canFinish = ((true, c.waker),
      { c with result := some result, completed := true, done := true, waker := none })) := by
  cases hcompleted : c.completed <;> cases hcan : canFinish c <;> simp [finish, hcompleted, hcan]

/-- What taking the result does, read out. -/
theorem TaskHandleInner.take_cases (c : TaskHandleInner R E W) :
    (c.completed = false ∧ c.take = (.notYet, c)) ∨
    (∃ result, c.completed = true ∧ c.result = some result ∧
      c.take = (.result result, { c with result := none })) ∨
    (c.completed = true ∧ c.result = none ∧ c.take = (.missing, c)) := by
  cases hcompleted : c.completed <;> cases hresult : c.result <;> simp [take, hcompleted, hresult]

/-- `cancel`, on a clone or on the handle, is one change. -/
theorem change_cancelStep (t : Task R E W) : Change t t.cancelStep := by
  rcases TaskHandleInner.finish_cases (.error .cancelled) (fun c => !c.started) t.inner with
    h | ⟨hcompleted, hcan, h⟩
  · refine .finishLost .cancel (.error .cancelled) ?_ ?_ ?_ <;>
      simp [Task.cancelStep, TaskHandleInner.cancel, h, Task.addCall]
  · refine .published .cancel (.error .cancelled) hcompleted (fun _ => ⟨by simpa using hcan, rfl⟩)
      ?_ ?_ ?_ <;>
      simp [Task.cancelStep, TaskHandleInner.cancel, h, Task.addCall]

/-- A round of `get` is one change. -/
theorem change_getStep (hlive : t.handle ≠ .consumed) : Change t t.getStep := by
  rcases t.inner.take_cases with ⟨hcompleted, h⟩ | ⟨result, hcompleted, hresult, h⟩ |
    ⟨hcompleted, hresult, h⟩
  · refine .quiet ?_ ?_ (fun hconsumed => absurd hconsumed hlive) <;> simp [Task.getStep, h]
  · refine .got result hresult ?_ ?_ ?_ <;> simp [Task.getStep, h]
  · refine .missing hcompleted hresult hlive ?_ ?_ <;> simp [Task.getStep, h]

/-- `poll` is one change. -/
theorem change_pollStep (hlive : t.handle ≠ .consumed) (waker : W) :
    Change t (t.pollStep waker) := by
  rcases t.inner.take_cases with ⟨hcompleted, h⟩ | ⟨result, hcompleted, hresult, h⟩ |
    ⟨hcompleted, hresult, h⟩
  · refine .pending waker hcompleted ?_ ?_ ?_ <;> simp [Task.pollStep, TaskHandleInner.poll, h]
  · refine .ready result hresult ?_ ?_ ?_ <;> simp [Task.pollStep, TaskHandleInner.poll, h]
  · refine .missing hcompleted hresult hlive ?_ ?_ <;>
      simp [Task.pollStep, TaskHandleInner.poll, h]

/-- `start` is one change, whatever the call does with its answer. -/
theorem change_start (t : Task R E W) (c : Bool → Call W) :
    Change t ({ t with inner := t.inner.start.2 }.addCall (c t.inner.start.1)
      (.start t.inner.start.1)) := by
  cases hcompleted : t.inner.completed with
  | true =>
    refine .startLost hcompleted ?_ ?_ rfl <;>
      simp [TaskHandleInner.start, hcompleted, Task.addCall]
  | false =>
    refine .startWon hcompleted ?_ ?_ rfl <;>
      simp [TaskHandleInner.start, hcompleted, Task.addCall]

/-- `complete` is one change, whatever the call does with its answer. -/
theorem change_complete (t : Task R E W) (result : TaskResult R E) {calls : List (Call W)}
    {woken : List W} :
    Change t ⟨(t.inner.complete result).2, t.handle, calls, woken,
      t.trace ++ [.finish .complete result (t.inner.complete result).1.1]⟩ := by
  rcases TaskHandleInner.finish_cases result (fun _ => true) t.inner with h | ⟨hcompleted, -, h⟩
  · refine .finishLost .complete result ?_ ?_ rfl <;> simp [TaskHandleInner.complete, h]
  · refine .published .complete result hcompleted (by simp) ?_ ?_ rfl <;>
      simp [TaskHandleInner.complete, h]

/-- **Every step is one change.** -/
theorem step_change {a : Action R E W} (hstep : t.step a = some t') : Change t t' := by
  cases a with
  | start =>
    obtain rfl := Option.some.inj hstep
    exact change_start t fun won => .returned (.start won)
  | complete result =>
    obtain rfl := Option.some.inj hstep
    exact change_complete t result
  | cancel =>
    obtain rfl := Option.some.inj hstep
    exact change_cancelStep t
  | startAndComplete =>
    obtain rfl := Option.some.inj hstep
    exact change_start t fun won => if won then .executing else .returned (.startAndComplete false)
  | taskReturns k result =>
    simp only [Task.step] at hstep
    split at hstep
    · obtain rfl := Option.some.inj hstep
      exact change_complete t result
    · exact absurd hstep (by simp)
  | taskUnwinds k =>
    simp only [Task.step] at hstep
    split at hstep
    · obtain rfl := Option.some.inj hstep
      exact .quiet rfl rfl id
    · exact absurd hstep (by simp)
  | notify k =>
    simp only [Task.step] at hstep
    split at hstep
    · obtain rfl := Option.some.inj hstep
      exact .quiet rfl rfl fun hconsumed => by simp [hconsumed]
    · exact absurd hstep (by simp)
  | wake k =>
    simp only [Task.step] at hstep
    split at hstep
    · obtain rfl := Option.some.inj hstep
      exact .quiet rfl rfl id
    · exact absurd hstep (by simp)
  | handleCancel =>
    simp only [Task.step] at hstep
    split_ifs at hstep
    obtain rfl := Option.some.inj hstep
    exact change_cancelStep t
  | isDone =>
    simp only [Task.step] at hstep
    split_ifs at hstep
    obtain rfl := Option.some.inj hstep
    exact .isDone rfl rfl rfl
  | poll waker =>
    simp only [Task.step] at hstep
    split_ifs at hstep with howned
    obtain rfl := Option.some.inj hstep
    exact change_pollStep (by simp [howned]) waker
  | get =>
    simp only [Task.step] at hstep
    split_ifs at hstep with howned
    obtain rfl := Option.some.inj hstep
    exact change_getStep (by simp [howned])
  | wakeGetter =>
    simp only [Task.step] at hstep
    split_ifs at hstep with hgetting
    obtain rfl := Option.some.inj hstep
    exact .quiet rfl rfl fun hconsumed => by simp [hgetting] at hconsumed
  | resumeGetter =>
    simp only [Task.step] at hstep
    split_ifs at hstep with hgetting
    obtain rfl := Option.some.inj hstep
    exact change_getStep (by simp [hgetting])

/-- Replacing a call that has not returned lets nobody else's call move. -/
theorem advance_of_set {calls : List (Call W)} {k n : ℕ} {c d d' : Call W} {P : Prop}
    (hk : calls[k]? = some c) (hn : calls[n]? = some d) (hd : d.isReturned = false)
    (hP : n = k → d = .executing → P) :
    ∃ c', (calls.set n d')[k]? = some c' ∧
      (c' = c ∨ c.isReturned = false ∧ (c = .executing → P)) := by
  rcases getElem?_set_kept hn hk d' with ⟨rfl, rfl⟩ | ⟨-, hstill⟩
  · exact ⟨d', getElem?_set_of_some hn d', Or.inr ⟨hd, hP rfl⟩⟩
  · exact ⟨c, hstill, Or.inl rfl⟩

/-- After `complete` the task is completed, by it or by somebody else. -/
theorem TaskHandleInner.completed_complete (result : TaskResult R E)
    (c : TaskHandleInner R E W) : (c.complete result).2.completed = true := by
  cases hcompleted : c.completed <;> simp [complete, finish, hcompleted]

/-- **What a step does to a call.** A call that has returned stays as it is, and a closure
that is executing ends by unwinding or with a completed task. -/
theorem step_call {a : Action R E W} (hstep : t.step a = some t') {k : ℕ} {c : Call W}
    (hk : t.calls[k]? = some c) :
    ∃ c', t'.calls[k]? = some c' ∧ (c' = c ∨ c.isReturned = false ∧
      (c = .executing → a = .taskUnwinds k ∨ t'.inner.completed = true)) := by
  cases a with
  | taskReturns n result =>
    simp only [Task.step] at hstep
    split at hstep
    · next hn =>
      obtain rfl := Option.some.inj hstep
      exact advance_of_set hk hn rfl
        fun _ _ => Or.inr (TaskHandleInner.completed_complete result t.inner)
    · exact absurd hstep (by simp)
  | taskUnwinds n =>
    simp only [Task.step] at hstep
    split at hstep
    · next hn =>
      obtain rfl := Option.some.inj hstep
      exact advance_of_set hk hn rfl fun hnk _ => Or.inl (by rw [hnk])
    · exact absurd hstep (by simp)
  | notify n =>
    simp only [Task.step] at hstep
    split at hstep
    · next waker reply hn =>
      obtain rfl := Option.some.inj hstep
      exact advance_of_set hk hn rfl fun _ hne => absurd hne (by simp)
    · exact absurd hstep (by simp)
  | wake n =>
    simp only [Task.step] at hstep
    split at hstep
    · next waker reply hn =>
      obtain rfl := Option.some.inj hstep
      exact advance_of_set hk hn rfl fun _ hne => absurd hne (by simp)
    · exact absurd hstep (by simp)
  | start | complete _ | cancel | startAndComplete =>
    obtain rfl := Option.some.inj hstep
    exact ⟨c, getElem?_concat_of_some hk _, Or.inl rfl⟩
  | handleCancel =>
    simp only [Task.step] at hstep
    split_ifs at hstep
    obtain rfl := Option.some.inj hstep
    exact ⟨c, getElem?_concat_of_some hk _, Or.inl rfl⟩
  | isDone | wakeGetter =>
    simp only [Task.step] at hstep
    split_ifs at hstep
    obtain rfl := Option.some.inj hstep
    exact ⟨c, hk, Or.inl rfl⟩
  | poll waker =>
    simp only [Task.step] at hstep
    split_ifs at hstep
    obtain rfl := Option.some.inj hstep
    refine ⟨c, ?_, Or.inl rfl⟩
    rw [Task.pollStep]
    split <;> exact hk
  | get | resumeGetter =>
    simp only [Task.step] at hstep
    split_ifs at hstep
    obtain rfl := Option.some.inj hstep
    refine ⟨c, ?_, Or.inl rfl⟩
    rw [Task.getStep]
    split <;> exact hk

/-- `finish` starts nothing. -/
@[simp] theorem TaskHandleInner.started_finish (result : TaskResult R E)
    (canFinish : TaskHandleInner R E W → Bool) (c : TaskHandleInner R E W) :
    (c.finish result canFinish).2.started = c.started := by
  rcases c.finish_cases result canFinish with h | ⟨-, -, h⟩ <;> rw [h]

/-- Taking the result starts nothing. -/
@[simp] theorem TaskHandleInner.started_take (c : TaskHandleInner R E W) :
    c.take.2.started = c.started := by
  rcases c.take_cases with ⟨-, h⟩ | ⟨result, -, -, h⟩ | ⟨-, -, h⟩ <;> rw [h]

/-- A round of `get` starts nothing. -/
@[simp] theorem Task.started_getStep (t : Task R E W) :
    t.getStep.inner.started = t.inner.started := by
  rw [← t.inner.started_take, getStep]
  split <;> simp_all

/-- `poll` starts nothing. -/
@[simp] theorem Task.started_pollStep (t : Task R E W) (waker : W) :
    (t.pollStep waker).inner.started = t.inner.started := by
  rcases t.inner.take_cases with ⟨-, h⟩ | ⟨result, -, -, h⟩ | ⟨-, -, h⟩ <;>
    simp [pollStep, TaskHandleInner.poll, h]

/-- **Only a start marks the task as started.** -/
theorem step_started {a : Action R E W} (hstep : t.step a = some t') (hstart : a ≠ .start)
    (hrun : a ≠ .startAndComplete) : t'.inner.started = t.inner.started := by
  cases a with
  | start => exact absurd rfl hstart
  | startAndComplete => exact absurd rfl hrun
  | complete result =>
    obtain rfl := Option.some.inj hstep
    exact TaskHandleInner.started_finish result (fun _ => true) t.inner
  | cancel =>
    obtain rfl := Option.some.inj hstep
    exact TaskHandleInner.started_finish (.error .cancelled) (fun c => !c.started) t.inner
  | taskReturns k result =>
    simp only [Task.step] at hstep
    split at hstep
    · obtain rfl := Option.some.inj hstep
      exact TaskHandleInner.started_finish result (fun _ => true) t.inner
    · exact absurd hstep (by simp)
  | taskUnwinds k | notify k | wake k =>
    simp only [Task.step] at hstep
    split at hstep
    · obtain rfl := Option.some.inj hstep
      rfl
    · exact absurd hstep (by simp)
  | handleCancel =>
    simp only [Task.step] at hstep
    split_ifs at hstep
    obtain rfl := Option.some.inj hstep
    exact TaskHandleInner.started_finish (.error .cancelled) (fun c => !c.started) t.inner
  | isDone | wakeGetter =>
    simp only [Task.step] at hstep
    split_ifs at hstep
    obtain rfl := Option.some.inj hstep
    rfl
  | poll waker =>
    simp only [Task.step] at hstep
    split_ifs at hstep
    obtain rfl := Option.some.inj hstep
    exact t.started_pollStep waker
  | get | resumeGetter =>
    simp only [Task.step] at hstep
    split_ifs at hstep
    obtain rfl := Option.some.inj hstep
    exact t.started_getStep

/-- No change takes a completion back. -/
theorem Change.completed (h : Change t t') (hcompleted : t.inner.completed = true) :
    t'.inner.completed = true := by
  cases h <;> simp_all

/-- No change takes a start back. -/
theorem Change.started (h : Change t t') (hstarted : t.inner.started = true) :
    t'.inner.started = true := by
  cases h <;> simp_all

/-! ### The invariant -/

/-- Whether a `finish` has published. -/
def Event.publishes : Event R E → Bool
  | finish _ _ published => published
  | _ => false

/-- The result that was handed out. -/
def Event.delivers : Event R E → Option (TaskResult R E)
  | ready result | got result => some result
  | _ => none

/-- Which answers may come after which: after a publication nothing is published and no
start wins, and after a start that won no cancellation is published. -/
def Event.Before (a b : Event R E) : Prop :=
  (a.publishes = true → b.publishes = false ∧ b ≠ .start true) ∧
    (a = .start true → ∀ result, b ≠ .finish .cancel result true)

/-- An answer that neither publishes nor wins a start may come after every other. -/
theorem Event.before_of_harmless {b : Event R E} (hpublishes : b.publishes = false)
    (hstart : b ≠ .start true) (a : Event R E) : a.Before b := by
  refine ⟨fun _ => ⟨hpublishes, hstart⟩, fun _ result hb => ?_⟩
  rw [hb] at hpublishes
  exact absurd hpublishes (by simp [publishes])

/-- **What the cell and the answers it has given have to do with each other.** -/
structure OneShot (t : Task R E W) : Prop where
  /-- The atomic mirror agrees. -/
  done : t.inner.done = t.inner.completed
  /-- A cell without a result has published none. -/
  unpublished : t.inner.completed = false → ∀ e ∈ t.trace, e.publishes = false
  /-- A start that won has left its mark. -/
  started : .start true ∈ t.trace → t.inner.started = true
  /-- The answers come in order. -/
  ordered : t.trace.Pairwise Event.Before
  /-- A stored result was published. -/
  stored : ∀ r, t.inner.result = some r → ∃ kind, .finish kind r true ∈ t.trace
  /-- A result that was handed out was published. -/
  delivered : ∀ e ∈ t.trace, ∀ r, e.delivers = some r → ∃ kind, .finish kind r true ∈ t.trace
  /-- A cancellation publishes `Cancelled`. -/
  cancelled : ∀ r, .finish .cancel r true ∈ t.trace → r = .error .cancelled
  /-- A result that is gone was taken by `poll`, unless the handle is gone too. -/
  taken : t.inner.completed = true → t.inner.result = none → t.handle ≠ .consumed →
    ∃ r, .ready r ∈ t.trace
  /-- A result was missing only after `poll` had taken it. -/
  missing : ∀ l₁ l₂, t.trace = l₁ ++ .missing :: l₂ → ∃ r, .ready r ∈ l₁

namespace OneShot

/-- **One more answer.** What has to be known of it, and of the change of the cell it
comes with. -/
theorem of_append (h : OneShot t) {e : Event R E} (htrace : t'.trace = t.trace ++ [e])
    (hdone : t'.inner.done = t'.inner.completed)
    (hunpublished : t'.inner.completed = false → t.inner.completed = false ∧ e.publishes = false)
    (hstarted : t.inner.started = true ∨ e = .start true → t'.inner.started = true)
    (hbefore : ∀ a ∈ t.trace, a.Before e)
    (hstored : ∀ r, t'.inner.result = some r →
      t.inner.result = some r ∨ ∃ kind, e = .finish kind r true)
    (hdelivered : ∀ r, e.delivers = some r → t.inner.result = some r)
    (hcancelled : ∀ r, e = .finish .cancel r true → r = .error .cancelled)
    (htaken : t'.inner.completed = true → t'.inner.result = none → t'.handle ≠ .consumed →
      (t.inner.completed = true ∧ t.inner.result = none ∧ t.handle ≠ .consumed) ∨ ∃ r, e = .ready r)
    (hmissing : e = .missing → ∃ r, .ready r ∈ t.trace) : OneShot t' where
  done := hdone
  unpublished := by
    intro hfalse e' he'
    rw [htrace] at he'
    rcases List.mem_append.mp he' with he' | he'
    · exact h.unpublished (hunpublished hfalse).1 e' he'
    · rw [List.mem_singleton.mp he']
      exact (hunpublished hfalse).2
  started := by
    intro hmem
    rw [htrace] at hmem
    rcases List.mem_append.mp hmem with hmem | hmem
    · exact hstarted (Or.inl (h.started hmem))
    · exact hstarted (Or.inr (List.mem_singleton.mp hmem).symm)
  ordered := by
    rw [htrace, List.pairwise_append]
    refine ⟨h.ordered, List.pairwise_singleton _ _, fun a ha b hb => ?_⟩
    rw [List.mem_singleton.mp hb]
    exact hbefore a ha
  stored := by
    intro r hr
    rw [htrace]
    rcases hstored r hr with hr | ⟨kind, rfl⟩
    · obtain ⟨kind, hkind⟩ := h.stored r hr
      exact ⟨kind, List.mem_append_left _ hkind⟩
    · exact ⟨kind, by simp⟩
  delivered := by
    intro e' he' r hr
    rw [htrace] at he' ⊢
    rcases List.mem_append.mp he' with he' | he'
    · obtain ⟨kind, hkind⟩ := h.delivered e' he' r hr
      exact ⟨kind, List.mem_append_left _ hkind⟩
    · rw [List.mem_singleton.mp he'] at hr
      obtain ⟨kind, hkind⟩ := h.stored r (hdelivered r hr)
      exact ⟨kind, List.mem_append_left _ hkind⟩
  cancelled := by
    intro r hr
    rw [htrace] at hr
    rcases List.mem_append.mp hr with hr | hr
    · exact h.cancelled r hr
    · exact hcancelled r (List.mem_singleton.mp hr).symm
  taken := by
    intro htrue hnone hlive
    rw [htrace]
    rcases htaken htrue hnone hlive with ⟨htrue', hnone', hlive'⟩ | ⟨r, rfl⟩
    · obtain ⟨r, hr⟩ := h.taken htrue' hnone' hlive'
      exact ⟨r, List.mem_append_left _ hr⟩
    · exact ⟨r, by simp⟩
  missing := by
    intro l₁ l₂ hsplit
    rw [htrace] at hsplit
    rcases append_singleton_split hsplit with ⟨rfl, he⟩ | ⟨l₃, -, hsplit⟩
    · exact hmissing he
    · exact h.missing l₁ l₃ hsplit

/-- An answer that leaves the cell and the handle as they are, and of which nothing
follows. -/
theorem of_harmless (h : OneShot t) {e : Event R E} (htrace : t'.trace = t.trace ++ [e])
    (hresult : t'.inner.result = t.inner.result) (hstarted : t'.inner.started = t.inner.started)
    (hcompleted : t'.inner.completed = t.inner.completed) (hdone : t'.inner.done = t.inner.done)
    (hhandle : t'.handle = t.handle) (hpublishes : e.publishes = false) (hstart : e ≠ .start true)
    (hdelivers : e.delivers = none) (hmissing : e ≠ .missing) : OneShot t' := by
  refine h.of_append htrace (by rw [hdone, hcompleted, h.done])
    (fun hfalse => ⟨by rw [← hcompleted, hfalse], hpublishes⟩)
    (fun hor => by rw [hstarted]; exact hor.resolve_right hstart)
    (fun a _ => Event.before_of_harmless hpublishes hstart a)
    (fun r hr => Or.inl (by rw [← hresult, hr])) (fun r hr => by simp [hdelivers] at hr) ?_
    (fun htrue hnone hlive => Or.inl ⟨by rw [← hcompleted, htrue], by rw [← hresult, hnone],
      by rw [← hhandle]; exact hlive⟩) (fun he => absurd he hmissing)
  rintro r rfl
  exact absurd hpublishes (by simp [Event.publishes])

/-- **Every change keeps the cell a one-shot cell.** -/
theorem change (h : OneShot t) (hchange : Change t t') : OneShot t' := by
  cases hchange with
  | quiet hinner htrace hhandle =>
    refine ⟨by rw [hinner, h.done], ?_, ?_, ?_, ?_, ?_, ?_, ?_, ?_⟩
    · rw [hinner, htrace]; exact h.unpublished
    · rw [hinner, htrace]; exact h.started
    · rw [htrace]; exact h.ordered
    · rw [hinner, htrace]; exact h.stored
    · rw [htrace]; exact h.delivered
    · rw [htrace]; exact h.cancelled
    · rw [hinner, htrace]
      exact fun htrue hnone hlive => h.taken htrue hnone fun hconsumed => hlive (hhandle hconsumed)
    · rw [htrace]; exact h.missing
  | isDone hinner htrace hhandle =>
    exact h.of_harmless htrace (by rw [hinner]) (by rw [hinner]) (by rw [hinner]) (by rw [hinner])
      hhandle rfl (by simp) rfl (by simp)
  | startLost hcompleted hinner htrace hhandle =>
    exact h.of_harmless htrace (by rw [hinner]) (by rw [hinner]) (by rw [hinner]) (by rw [hinner])
      hhandle rfl (by simp) rfl (by simp)
  | finishLost kind result hinner htrace hhandle =>
    exact h.of_harmless htrace (by rw [hinner]) (by rw [hinner]) (by rw [hinner]) (by rw [hinner])
      hhandle rfl (by simp) rfl (by simp)
  | pending waker hcompleted hinner htrace hhandle =>
    exact h.of_harmless htrace (by rw [hinner]) (by rw [hinner]) (by rw [hinner]) (by rw [hinner])
      hhandle rfl (by simp) rfl (by simp)
  | startWon hcompleted hinner htrace hhandle =>
    have hnone : ∀ e ∈ t.trace, e.publishes = false := h.unpublished hcompleted
    refine h.of_append htrace (by rw [hinner]; exact h.done) (fun _ => ⟨hcompleted, rfl⟩)
      (fun _ => by rw [hinner]) (fun a ha => ?_)
      (fun r hr => Or.inl (by rw [hinner] at hr; exact hr))
      (by simp [Event.delivers]) (by simp) (fun htrue => ?_) (by simp)
    · exact ⟨fun hpub => absurd hpub (by rw [hnone a ha]; simp), by simp⟩
    · rw [hinner] at htrue
      exact absurd htrue (by simp [hcompleted])
  | published kind result hcompleted hcancel hinner htrace hhandle =>
    have hnone : ∀ e ∈ t.trace, e.publishes = false := h.unpublished hcompleted
    refine h.of_append htrace (by rw [hinner]) (fun hfalse => ?_) (fun hor => ?_) (fun a ha => ?_)
      (fun r hr => ?_) (by simp [Event.delivers]) (fun r hr => ?_) (fun _ hnone' => ?_) (by simp)
    · rw [hinner] at hfalse
      exact absurd hfalse (by simp)
    · rw [hinner]
      exact hor.resolve_right (by simp)
    · refine ⟨fun hpub => absurd hpub (by rw [hnone a ha]; simp), ?_⟩
      -- a task that was started is not cancelled
      rintro rfl r hfinish
      obtain ⟨rfl, -, -⟩ := Event.finish.inj hfinish
      have hstarted := h.started ha
      rw [(hcancel rfl).1] at hstarted
      exact absurd hstarted (by simp)
    · rw [hinner] at hr
      obtain rfl := Option.some.inj hr
      exact Or.inr ⟨kind, rfl⟩
    · obtain ⟨rfl, rfl, -⟩ := Event.finish.inj hr
      exact (hcancel rfl).2
    · rw [hinner] at hnone'
      exact absurd hnone' (by simp)
  | ready result hresult hinner htrace hhandle =>
    refine h.of_append htrace (by rw [hinner]; exact h.done) (fun hfalse => ?_) (fun hor => ?_)
      (fun a _ => Event.before_of_harmless rfl (by simp) a) (fun r hr => ?_) (fun r hr => ?_)
      (by simp) (fun _ _ _ => Or.inr ⟨result, rfl⟩) (by simp)
    · rw [hinner] at hfalse
      exact ⟨hfalse, rfl⟩
    · rw [hinner]
      exact hor.resolve_right (by simp)
    · rw [hinner] at hr
      exact absurd hr (by simp)
    · rw [hresult, ← hr]
      rfl
  | got result hresult hinner htrace hhandle =>
    refine h.of_append htrace (by rw [hinner]; exact h.done) (fun hfalse => ?_) (fun hor => ?_)
      (fun a _ => Event.before_of_harmless rfl (by simp) a) (fun r hr => ?_) (fun r hr => ?_)
      (by simp) (fun _ _ hlive => absurd hhandle hlive) (by simp)
    · rw [hinner] at hfalse
      exact ⟨hfalse, rfl⟩
    · rw [hinner]
      exact hor.resolve_right (by simp)
    · rw [hinner] at hr
      exact absurd hr (by simp)
    · rw [hresult, ← hr]
      rfl
  | missing hcompleted hresult hlive hinner htrace =>
    refine h.of_append htrace (by rw [hinner, h.done]) (fun hfalse => ?_) (fun hor => ?_)
      (fun a _ => Event.before_of_harmless rfl (by simp) a) (fun r hr => ?_)
      (by simp [Event.delivers]) (by simp) (fun _ _ _ => Or.inl ⟨hcompleted, hresult, hlive⟩)
      (fun _ => h.taken hcompleted hresult hlive)
    · rw [hinner] at hfalse
      exact ⟨hfalse, rfl⟩
    · rw [hinner]
      exact hor.resolve_right (by simp)
    · rw [hinner] at hr
      exact Or.inl hr

/-- Two publications are one and the same. -/
theorem eq_of_publishes (h : OneShot t) {a b : Event R E} (ha : a ∈ t.trace)
    (hpa : a.publishes = true) (hb : b ∈ t.trace) (hpb : b.publishes = true) : a = b := by
  by_contra hne
  obtain ⟨l₁, l₂, hsplit⟩ := List.append_of_mem ha
  have hordered := h.ordered
  rw [hsplit, List.pairwise_append, List.pairwise_cons] at hordered
  obtain ⟨-, ⟨hafter, -⟩, hbefore⟩ := hordered
  rw [hsplit] at hb
  rcases List.mem_append.mp hb with hb | hb
  · rw [((hbefore b hb a (List.mem_cons_self ..)).1 hpb).1] at hpa
    exact absurd hpa (by simp)
  · rcases List.mem_cons.mp hb with rfl | hb
    · exact hne rfl
    · rw [((hafter b hb).1 hpa).1] at hpb
      exact absurd hpb (by simp)

/-- At most one answer publishes. -/
theorem count_publishes_le (h : OneShot t) : t.trace.countP Event.publishes ≤ 1 := by
  have hordered := h.ordered
  generalize t.trace = trace at hordered
  induction trace with
  | nil => simp
  | cons e l ih =>
    rw [List.pairwise_cons] at hordered
    rw [List.countP_cons]
    split_ifs with hpub
    · -- after a publication there is none
      have hnone : l.countP Event.publishes = 0 :=
        List.countP_eq_zero.mpr fun b hb => by simp [((hordered.1 b hb).1 hpub).1]
      omega
    · exact ih hordered.2

/-- A new cell is a one-shot cell. -/
theorem new : OneShot (Task.new : Task R E W) where
  done := rfl
  unpublished := by simp [Task.new]
  started := by simp [Task.new]
  ordered := List.Pairwise.nil
  stored := by simp [Task.new, TaskHandleInner.new]
  delivered := by simp [Task.new]
  cancelled := by simp [Task.new]
  taken := by simp [Task.new, TaskHandleInner.new]
  missing := by simp [Task.new]

/-- Every reachable cell is a one-shot cell. -/
theorem of_reach (hs : (machine R E W).Reach t) : OneShot t :=
  hs.invariant (fun _ hinit => hinit ▸ new)
    fun _ _ _ _ h _ hstep => h.change (step_change hstep)

end OneShot

/-- **A task handle is a one-shot cell.** For every number of clones of the completion
and every interleaving of the calls on them and on the handle: at most one `finish` ever
publishes; what `get` or `poll` hands out is what was published; outside critical
sections the atomic flag is the completion flag, and neither is taken back; after a
cancellation was published every start loses, and what is handed out is `Cancelled`;
after a start has won no cancellation is published; and the result is missing only after
a `poll` has already returned `Ready`. -/
theorem one_shot_cell (hs : (machine R E W).Reach t) :
    t.trace.countP Event.publishes ≤ 1 ∧
      (∀ r, .ready r ∈ t.trace ∨ .got r ∈ t.trace → ∃ kind, .finish kind r true ∈ t.trace) ∧
      (t.inner.done = t.inner.completed ∧ ∀ a t', t.step a = some t' →
        (t.inner.completed = true → t'.inner.completed = true) ∧
          (t.inner.done = true → t'.inner.done = true)) ∧
      (∀ l₁ l₂ r, t.trace = l₁ ++ .finish .cancel r true :: l₂ →
        (∀ won, .start won ∈ l₂ → won = false) ∧
          ∀ r', .ready r' ∈ t.trace ∨ .got r' ∈ t.trace → r' = .error .cancelled) ∧
      (∀ l₁ l₂, t.trace = l₁ ++ .start true :: l₂ → ∀ r, .finish .cancel r true ∉ l₂) ∧
      ∀ l₁ l₂, t.trace = l₁ ++ .missing :: l₂ → ∃ r, .ready r ∈ l₁ := by
  have h := OneShot.of_reach hs
  have hdelivered : ∀ r, .ready r ∈ t.trace ∨ .got r ∈ t.trace →
      ∃ kind, .finish kind r true ∈ t.trace := by
    rintro r (hr | hr)
    · exact h.delivered _ hr r rfl
    · exact h.delivered _ hr r rfl
  have hcount := h.count_publishes_le
  refine ⟨hcount, hdelivered, ⟨h.done, fun a t' hstep => ?_⟩, fun l₁ l₂ r hsplit => ?_,
    fun l₁ l₂ hsplit r hmem => ?_, h.missing⟩
  · have hcompleted := (step_change hstep).completed
    refine ⟨hcompleted, fun hdone => ?_⟩
    rw [(h.change (step_change hstep)).done]
    exact hcompleted (by rw [← h.done, hdone])
  · have hordered := h.ordered
    rw [hsplit, List.pairwise_append, List.pairwise_cons] at hordered
    refine ⟨fun won hwon => ?_, fun r' hr' => ?_⟩
    · have hlost := (hordered.2.1.1 _ hwon).1 rfl
      cases won with
      | false => rfl
      | true => exact absurd rfl hlost.2
    · -- the one publication is the cancellation
      obtain ⟨kind, hkind⟩ := hdelivered r' hr'
      have hcancel : .finish .cancel r true ∈ t.trace := by rw [hsplit]; simp
      obtain ⟨-, rfl, -⟩ := Event.finish.inj (h.eq_of_publishes hkind rfl hcancel rfl)
      exact h.cancelled _ hcancel
  · have hordered := h.ordered
    rw [hsplit, List.pairwise_append, List.pairwise_cons] at hordered
    exact (hordered.2.1.1 _ hmem).2 rfl r rfl

/-- A task is polled, completes, and hands out its value. -/
theorem one_shot_cell_run :
    ∃ t : Task ℕ ℕ ℕ, .got (.ok 7) ∈ t.trace ∧ t.trace.countP Event.publishes ≤ 1 ∧
      ∃ kind, .finish kind (.ok 7) true ∈ t.trace := by
  obtain ⟨t, hs, hp⟩ := Machine.exists_reachVia_of_exec (M := machine ℕ ℕ ℕ) (fun _ _ => True)
    (fun _ _ => true) (fun _ _ _ => trivial) rfl
    [.startAndComplete, .poll 0, .taskReturns 0 (.ok 7), .cancel, .notify 0, .wake 0, .get]
    (fun t => decide (.got (.ok 7) ∈ t.trace)) (by decide)
  have hmem : .got (.ok 7) ∈ t.trace := of_decide_eq_true hp
  obtain ⟨hcount, hdelivered, -⟩ := one_shot_cell hs
  exact ⟨t, hmem, hcount, hdelivered _ (Or.inr hmem)⟩

end TaskHandle

end QubitConcurrent
