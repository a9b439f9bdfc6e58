import QubitConcurrent.Lib.History
import QubitConcurrent.TaskHandle.OneShot

/-!
# Nobody misses the completion of a task

Whoever waits for a task does so in one of two ways: by a `get`, parked on the condition
variable, or by polls, having left a waker behind. A `finish` that publishes takes the waker
out of the cell in the critical section in which it publishes, and notifies and wakes
afterwards, outside of it.

So between the publication and the return of that call, something is still owed – and it is
owed by that call alone. `QubitConcurrent.TaskHandle.Delivery` follows it: nothing is owed
before a publication, then the notification and the waker of the last poll, then that waker
only, then nothing. Which poll was the last one, and which call has published, the state does
not tell; an observer notes it (`QubitConcurrent.TaskHandle.Task.note`).
-/

namespace QubitConcurrent

namespace TaskHandle

variable {R E W : Type} {t t' : Task R E W}

/-! ### What is noted -/

/-- What an observer notes of a step. -/
inductive Note (W : Type)
  /-- A poll answered `Pending` and left its waker. -/
  | stored (waker : W)
  /-- A call has published a result. -/
  | published (call : ℕ)
  deriving DecidableEq, Repr

/-- The waker a note is about. -/
def Note.waker? : Note W → Option W
  | stored waker => some waker
  | published _ => none

/-- The answers an observer has an eye on: `Pending`, and that of a `finish` that published. -/
def Task.note (t : Task R E W) (a : Action R E W) (t' : Task R E W) : List (Note W) :=
  match a, t'.trace.getLast? with
  | .poll waker, some .pending => [.stored waker]
  | .taskReturns k _, some (.finish _ _ true) => [.published k]
  | .complete _, some (.finish _ _ true) => [.published t.calls.length]
  | .cancel, some (.finish _ _ true) => [.published t.calls.length]
  | .handleCancel, some (.finish _ _ true) => [.published t.calls.length]
  | _, _ => []

/-- The waker of the last poll that answered `Pending`. -/
def lastStored (log : List (Note W)) : Option W := (log.filterMap Note.waker?).getLast?

@[simp] theorem lastStored_stored (log : List (Note W)) (waker : W) :
    lastStored (log ++ [.stored waker]) = some waker := by
  simp [lastStored, Note.waker?]

@[simp] theorem lastStored_published (log : List (Note W)) (k : ℕ) :
    lastStored (log ++ [.published k]) = lastStored log := by
  simp [lastStored, Note.waker?]

/-! ### What a step does to a delivery -/

/-- Whether the call has published, and still owes somebody something. -/
def Call.isClosing : Call W → Bool
  | notify _ _ | wake _ _ => true
  | _ => false

/-- No call starts to owe anything, and those that do or have returned stay as they are. -/
structure CallsKept (calls calls' : List (Call W)) : Prop where
  /-- Nobody starts to owe anything. -/
  closing : ∀ (n : ℕ) c, calls'[n]? = some c → c.isClosing = true → calls[n]? = some c
  /-- Whoever owes something or has returned stays where it is. -/
  kept : ∀ (n : ℕ) c, calls[n]? = some c → c ≠ .executing → calls'[n]? = some c

/-- **What a step does to a delivery**, with what is noted of it. -/
inductive Turn (t t' : Task R E W) (notes : List (Note W)) : Prop
  /-- Nothing is stored, published, notified or woken. -/
  | aside (hcompleted : t'.inner.completed = t.inner.completed)
      (hwaker : t'.inner.waker = t.inner.waker) (hwoken : t'.woken = t.woken)
      (hcalls : CallsKept t.calls t'.calls)
      (hhandle : t'.handle = .getting false → t.handle = .getting false ∨
        t.inner.completed = false)
      (hnotes : notes = [])
  /-- A poll answers `Pending` and leaves its waker. -/
  | stored (waker : W) (hcompleted : t.inner.completed = false)
      (hcompleted' : t'.inner.completed = false) (hwaker : t'.inner.waker = some waker)
      (hwoken : t'.woken = t.woken) (hcalls : t'.calls = t.calls) (hnotes : notes = [.stored waker])
  /-- A call publishes, and takes the waker with it. -/
  | published (k : ℕ) (reply : Reply) (hcompleted : t.inner.completed = false)
      (hcompleted' : t'.inner.completed = true) (hwaker : t'.inner.waker = none)
      (hwoken : t'.woken = t.woken) (hk : t'.calls[k]? = some (.notify t.inner.waker reply))
      (hcalls : ∀ (n : ℕ) c, t'.calls[n]? = some c → c.isClosing = true → n = k ∨
        t.calls[n]? = some c)
      (hnotes : notes = [.published k])
  /-- A call that has published notifies. -/
  | notified (k : ℕ) (waker : Option W) (reply : Reply)
      (hk : t.calls[k]? = some (.notify waker reply)) (hinner : t'.inner = t.inner)
      (hwoken : t'.woken = t.woken) (hhandle : t'.handle ≠ .getting false)
      (hcalls : t'.calls = t.calls.set k (waker.elim (.returned reply) fun w => .wake w reply))
      (hnotes : notes = [])
  /-- A call that has published wakes. -/
  | woke (k : ℕ) (waker : W) (reply : Reply) (hk : t.calls[k]? = some (.wake waker reply))
      (hinner : t'.inner = t.inner) (hwoken : t'.woken = t.woken ++ [waker])
      (hhandle : t'.handle = t.handle) (hcalls : t'.calls = t.calls.set k (.returned reply))
      (hnotes : notes = [])

/-- Nothing happens to the calls. -/
theorem CallsKept.refl (calls : List (Call W)) : CallsKept calls calls :=
  ⟨fun _ _ h _ => h, fun _ _ h _ => h⟩

/-- A call is made that owes nothing. -/
theorem CallsKept.append (calls : List (Call W)) {c : Call W} (hc : c.isClosing = false) :
    CallsKept calls (calls ++ [c]) where
  closing n d hn hd := by
    rcases getElem?_concat_cases hn with hold | ⟨-, rfl⟩
    · exact hold
    · rw [hc] at hd
      exact absurd hd (by simp)
  kept n d hn _ := getElem?_concat_of_some hn c

/-- A closure ends, and nothing is owed. -/
theorem CallsKept.set {calls : List (Call W)} {k : ℕ} {c : Call W}
    (hk : calls[k]? = some .executing) (hc : c.isClosing = false) :
    CallsKept calls (calls.set k c) where
  closing n d hn hd := by
    rcases getElem?_set_cases hk hn with ⟨-, rfl⟩ | ⟨-, hold⟩
    · rw [hc] at hd
      exact absurd hd (by simp)
    · exact hold
  kept n d hn hd := by
    rcases getElem?_set_kept hk hn c with ⟨-, hd'⟩ | ⟨-, hstill⟩
    · exact absurd hd' hd
    · exact hstill

/-- The call made last is the only one that may owe something more than before. -/
theorem closing_of_append {calls : List (Call W)} {c d : Call W} {n : ℕ}
    (hn : (calls ++ [c])[n]? = some d) : n = calls.length ∨ calls[n]? = some d :=
  (getElem?_concat_cases hn).symm.imp And.left id

/-- The call that has moved is the only one that may owe something more than before. -/
theorem closing_of_set {calls : List (Call W)} {c d : Call W} {k n : ℕ}
    (hn : (calls.set k c)[n]? = some d) : n = k ∨ calls[n]? = some d := by
  by_cases hnk : k = n
  · exact Or.inl hnk.symm
  · exact Or.inr (by rwa [List.getElem?_set_ne hnk] at hn)

/-- A `finish` on a clone or on the handle is one turn. -/
theorem turn_finish (result : TaskResult R E) (canFinish : TaskHandleInner R E W → Bool)
    (reply : Bool → Reply) {t' : Task R E W} {notes : List (Note W)}
    (hinner : t'.inner = (t.inner.finish result canFinish).2) (hhandle : t'.handle = t.handle)
    (hwoken : t'.woken = t.woken)
    (hcalls : t'.calls = t.calls ++ [Task.afterFinish reply (t.inner.finish result canFinish).1])
    (hnotes : notes = if (t.inner.finish result canFinish).1.1 then [.published t.calls.length]
      else []) : Turn t t' notes := by
  rcases t.inner.finish_cases result canFinish with h | ⟨hcompleted, -, h⟩
  · rw [h] at hinner hcalls hnotes
    refine .aside (by rw [hinner]) (by rw [hinner]) hwoken ?_ (fun hg => Or.inl (hhandle ▸ hg))
      hnotes
    rw [hcalls]
    exact CallsKept.append _ rfl
  · rw [h] at hinner hcalls hnotes
    refine .published t.calls.length (reply true) hcompleted (by rw [hinner]) (by rw [hinner])
      hwoken ?_ ?_ hnotes
    · rw [hcalls]
      simp [Task.afterFinish]
    · rw [hcalls]
      exact fun n c hn _ => closing_of_append hn

/-- A round of `get` is one turn. -/
theorem turn_getStep (t : Task R E W) : Turn t t.getStep [] := by
  have hkept := CallsKept.refl t.calls
  rcases t.inner.take_cases with ⟨hcompleted, h⟩ | ⟨result, hcompleted, hresult, h⟩ |
    ⟨hcompleted, hresult, h⟩
  · have heq : t.getStep = { t with handle := .getting false } := by rw [Task.getStep, h]
    rw [heq]
    exact .aside rfl rfl rfl hkept (fun _ => Or.inr hcompleted) rfl
  · have heq : t.getStep = { t with inner := { t.inner with result := none }, handle := .consumed
                                    trace := t.trace ++ [.got result] } := by rw [Task.getStep, h]
    rw [heq]
    exact .aside rfl rfl rfl hkept (fun hg => absurd hg (by simp)) rfl
  · have heq : t.getStep = { t with handle := .consumed, trace := t.trace ++ [.missing] } := by
      rw [Task.getStep, h]
    rw [heq]
    exact .aside rfl rfl rfl hkept (fun hg => absurd hg (by simp)) rfl

/-- **What a poll does**: before a publication it answers `Pending` and leaves its waker, and
afterwards it does neither. -/
theorem pollStep_cases (waker : W) (t : Task R E W) :
    (t.inner.completed = false ∧ t.pollStep waker =
      { t with inner := { t.inner with waker := some waker }, trace := t.trace ++ [.pending] }) ∨
    (t.inner.completed = true ∧ ∃ inner event, t.pollStep waker =
      { t with inner := inner, trace := t.trace ++ [event] } ∧ inner.completed = true ∧
      inner.waker = t.inner.waker ∧ event ≠ .pending) := by
  rcases t.inner.take_cases with ⟨hcompleted, h⟩ | ⟨result, hcompleted, hresult, h⟩ |
    ⟨hcompleted, hresult, h⟩
  · exact Or.inl ⟨hcompleted, by simp [Task.pollStep, TaskHandleInner.poll, h]⟩
  · refine Or.inr ⟨hcompleted, { t.inner with result := none }, .ready result, ?_, hcompleted, rfl,
      by simp⟩
    simp [Task.pollStep, TaskHandleInner.poll, h]
  · refine Or.inr ⟨hcompleted, t.inner, .missing, ?_, hcompleted, rfl, by simp⟩
    simp [Task.pollStep, TaskHandleInner.poll, h]

/-- A poll is one turn. -/
theorem turn_pollStep (waker : W) (t : Task R E W) :
    Turn t (t.pollStep waker) (t.note (.poll waker) (t.pollStep waker)) := by
  rcases pollStep_cases waker t with ⟨hcompleted, h⟩ | ⟨hcompleted, inner, event, h, hinner, hw, he⟩
  · rw [h]
    exact .stored waker hcompleted hcompleted rfl rfl rfl (by simp [Task.note])
  · rw [h]
    refine .aside (hinner.trans hcompleted.symm) hw rfl (CallsKept.refl _) Or.inl ?_
    cases event with
    | pending => exact absurd rfl he
    | _ => simp [Task.note]

/-- `start` is one turn, whatever the call does with its answer. -/
theorem turn_start (t : Task R E W) {c : Call W} (hc : c.isClosing = false) (e : Event R E) :
    Turn t ({ t with inner := t.inner.start.2 }.addCall c e) [] := by
  have hsame : t.inner.start.2.completed = t.inner.completed ∧
      t.inner.start.2.waker = t.inner.waker := by
    rw [TaskHandleInner.start]
    split_ifs <;> exact ⟨rfl, rfl⟩
  exact .aside hsame.1 hsame.2 rfl (CallsKept.append _ hc) Or.inl rfl

/-- What is noted of a `finish` is whether it has published. -/
theorem note_of_finish {a : Action R E W} {k : ℕ} {kind : FinishKind} {result : TaskResult R E}
    {published : Bool} (htrace : t'.trace = t.trace ++ [.finish kind result published])
    (ha : (∃ r, a = .taskReturns k r) ∨ k = t.calls.length ∧
      ((∃ r, a = .complete r) ∨ a = .cancel ∨ a = .handleCancel)) :
    t.note a t' = if published then [.published k] else [] := by
  have hlast : t'.trace.getLast? = some (.finish kind result published) := by simp [htrace]
  rcases ha with ⟨r, rfl⟩ | ⟨rfl, ⟨r, rfl⟩ | rfl | rfl⟩
  all_goals
    simp only [Task.note, hlast]
    cases published <;> rfl

/-- `cancel`, on a clone or on the handle, is one turn. -/
theorem turn_cancelStep {a : Action R E W} (ha : a = .cancel ∨ a = .handleCancel) :
    Turn t t.cancelStep (t.note a t.cancelStep) :=
  turn_finish (.error .cancelled) (fun c => !c.started) .cancel rfl rfl rfl rfl
    (note_of_finish rfl (Or.inr ⟨rfl, Or.inr ha⟩))

/-- The closure of a `start_and_complete` returns, and `complete` publishes or not: one
turn. -/
theorem turn_taskReturns {k : ℕ} (hk : t.calls[k]? = some .executing) (result : TaskResult R E)
    (reply : Bool → Reply) {notes : List (Note W)}
    (hnotes : notes = if (t.inner.complete result).1.1 then [.published k] else []) :
    Turn t { t with
      inner := (t.inner.complete result).2
      calls := t.calls.set k (Task.afterFinish reply (t.inner.complete result).1)
      trace := t.trace ++ [.finish .complete result (t.inner.complete result).1.1] } notes := by
  rcases t.inner.finish_cases result fun _ => true with h | ⟨hcompleted, -, h⟩
  · have h' : t.inner.complete result = ((false, none), t.inner) := h
    rw [h'] at hnotes ⊢
    exact .aside rfl rfl rfl (CallsKept.set hk rfl) Or.inl hnotes
  · have h' : t.inner.complete result = ((true, t.inner.waker), { t.inner with
        result := some result, completed := true, done := true, waker := none }) := h
    rw [h'] at hnotes ⊢
    refine .published k (reply true) hcompleted rfl rfl rfl ?_ (fun n c hn _ => closing_of_set hn)
      hnotes
    rw [getElem?_set_of_some hk]
    rfl

/-- **Every step is one turn.** -/
theorem step_turn {a : Action R E W} (hstep : t.step a = some t') :
    Turn t t' (t.note a t') := by
  cases a with
  | start =>
    obtain rfl := Option.some.inj hstep
    exact turn_start t rfl _
  | complete result =>
    obtain rfl := Option.some.inj hstep
    exact turn_finish result (fun _ => true) (fun _ => .complete) rfl rfl rfl rfl
      (note_of_finish rfl (Or.inr ⟨rfl, Or.inl ⟨result, rfl⟩⟩))
  | cancel =>
    obtain rfl := Option.some.inj hstep
    exact turn_cancelStep (Or.inl rfl)
  | startAndComplete =>
    obtain rfl := Option.some.inj hstep
    refine turn_start t ?_ _
    split_ifs <;> rfl
  | taskReturns k result =>
    simp only [Task.step] at hstep
    split at hstep
    · next hk =>
      obtain rfl := Option.some.inj hstep
      exact turn_taskReturns hk result _ (note_of_finish rfl (Or.inl ⟨result, rfl⟩))
    · exact absurd hstep (by simp)
  | taskUnwinds k =>
    simp only [Task.step] at hstep
    split at hstep
    · next hk =>
      obtain rfl := Option.some.inj hstep
      exact .aside rfl rfl rfl (CallsKept.set hk rfl) Or.inl rfl
    · exact absurd hstep (by simp)
  | notify k =>
    simp only [Task.step] at hstep
    split at hstep
    · next waker reply hk =>
      obtain rfl := Option.some.inj hstep
      refine .notified k waker reply hk rfl rfl ?_ rfl rfl
      -- a `get` that sleeps is told, so after this none does
      show (if t.handle = .getting false then HandlePhase.getting true else t.handle) ≠ _
      split_ifs with hg
      · simp
      · exact hg
    · exact absurd hstep (by simp)
  | wake k =>
    simp only [Task.step] at hstep
    split at hstep
    · next waker reply hk =>
      obtain rfl := Option.some.inj hstep
      exact .woke k waker reply hk rfl rfl rfl rfl rfl
    · exact absurd hstep (by simp)
  | handleCancel =>
    simp only [Task.step] at hstep
    split_ifs at hstep
    obtain rfl := Option.some.inj hstep
    exact turn_cancelStep (Or.inr rfl)
  | isDone =>
    simp only [Task.step] at hstep
    split_ifs at hstep
    obtain rfl := Option.some.inj hstep
    exact .aside rfl rfl rfl (CallsKept.refl _) Or.inl rfl
  | poll waker =>
    simp only [Task.step] at hstep
    split_ifs at hstep
    obtain rfl := Option.some.inj hstep
    exact turn_pollStep waker t
  | get | resumeGetter =>
    simp only [Task.step] at hstep
    split_ifs at hstep
    obtain rfl := Option.some.inj hstep
    exact turn_getStep t
  | wakeGetter =>
    simp only [Task.step] at hstep
    split_ifs at hstep
    obtain rfl := Option.some.inj hstep
    exact .aside rfl rfl rfl (CallsKept.refl _) (fun hg => absurd hg (by simp)) rfl

/-! ### Deliveries -/

/-- How far the call that has published has come: it owes the notification and the waker, the
waker only, or nothing. -/
inductive Stage (t : Task R E W) (waker : Option W) : Call W → Prop
  /-- The notification is to come. -/
  | notify (reply : Reply) (hwoken : t.woken = []) : Stage t waker (.notify waker reply)
  /-- The waiters were notified, and the poller is to be woken. -/
  | wake (w : W) (reply : Reply) (hwaker : waker = some w) (hwoken : t.woken = [])
      (hhandle : t.handle ≠ .getting false) : Stage t waker (.wake w reply)
  /-- Everybody was told. -/
  | returned (reply : Reply) (hwoken : t.woken = waker.toList)
      (hhandle : t.handle ≠ .getting false) : Stage t waker (.returned reply)

/-- **What is owed to whom.** -/
inductive Delivery (t : Task R E W) (log : List (Note W)) : Prop
  /-- Nothing was published, nobody was woken, and the waker of the last poll is stored. -/
  | before (hcompleted : t.inner.completed = false) (hlog : ∀ k, Note.published k ∉ log)
      (hwoken : t.woken = []) (hwaker : t.inner.waker = lastStored log)
      (hcalls : ∀ (n : ℕ) c, t.calls[n]? = some c → c.isClosing = false)
  /-- One call has published, and whatever is still owed, it owes. -/
  | after (k : ℕ) (c : Call W) (hcompleted : t.inner.completed = true)
      (hlog : ∀ n, Note.published n ∈ log → n = k) (hwaker : t.inner.waker = none)
      (hcalls : ∀ (n : ℕ) c, t.calls[n]? = some c → c.isClosing = true → n = k)
      (hk : t.calls[k]? = some c) (hstage : Stage t (lastStored log) c)

namespace Stage

/-- A call that has published is not inside a closure any more. -/
theorem ne_executing {waker : Option W} {c : Call W} (h : Stage t waker c) : c ≠ .executing := by
  cases h <;> simp

/-- What is owed stays owed while nobody is woken and nobody parks. -/
theorem of_aside {waker : Option W} {c : Call W} (h : Stage t waker c)
    (hwoken : t'.woken = t.woken)
    (hhandle : t'.handle = .getting false → t.handle = .getting false) : Stage t' waker c := by
  cases h with
  | notify reply hnone => exact .notify reply (hwoken.trans hnone)
  | wake w reply hwaker hnone hg =>
    exact .wake w reply hwaker (hwoken.trans hnone) fun h => hg (hhandle h)
  | returned reply hall hg => exact .returned reply (hwoken.trans hall) fun h => hg (hhandle h)

end Stage

namespace Delivery

variable {log : List (Note W)}

/-- Before a publication, whatever a turn does that is none. -/
theorem turn_before {notes : List (Note W)} (hcompleted : t.inner.completed = false)
    (hlog : ∀ k, Note.published k ∉ log) (hwoken : t.woken = [])
    (hwaker : t.inner.waker = lastStored log)
    (hcalls : ∀ (n : ℕ) c, t.calls[n]? = some c → c.isClosing = false) (h : Turn t t' notes) :
    Delivery t' (log ++ notes) := by
  cases h with
  | aside hsame hw hwoken' hkept hhandle hnotes =>
    subst hnotes
    rw [List.append_nil]
    refine .before (hsame.trans hcompleted) hlog (hwoken'.trans hwoken) (hw.trans hwaker) ?_
    intro n c hn
    by_contra hc
    have hclosing : c.isClosing = true := by simpa using hc
    rw [hcalls n c (hkept.closing n c hn hclosing)] at hclosing
    exact absurd hclosing (by simp)
  | stored waker _ hcompleted' hw hwoken' hsame hnotes =>
    subst hnotes
    refine .before hcompleted' ?_ (hwoken'.trans hwoken) ?_ (hsame ▸ hcalls)
    · intro k hmem
      rcases List.mem_append.mp hmem with hold | hnew
      · exact hlog k hold
      · exact absurd (List.mem_singleton.mp hnew) (by simp)
    · rw [hw, lastStored_stored]
  | published k reply _ hcompleted' hw hwoken' hk hnew hnotes =>
    subst hnotes
    refine .after k _ hcompleted' ?_ hw ?_ hk ?_
    · intro n hmem
      rcases List.mem_append.mp hmem with hold | hlast
      · exact absurd hold (hlog n)
      · simpa using hlast
    · intro n c hn hc
      refine (hnew n c hn hc).resolve_right fun hold => ?_
      rw [hcalls n c hold] at hc
      exact absurd hc (by simp)
    · rw [lastStored_published, ← hwaker]
      exact .notify reply (hwoken'.trans hwoken)
  | notified k waker reply hk => exact absurd (hcalls k _ hk) (by simp [Call.isClosing])
  | woke k waker reply hk => exact absurd (hcalls k _ hk) (by simp [Call.isClosing])

/-- The call that has published moves on. -/
theorem of_set {k : ℕ} {c : Call W} (hcompleted : t.inner.completed = true)
    (hlog : ∀ n, Note.published n ∈ log → n = k) (hwaker : t.inner.waker = none)
    (hcalls : ∀ (n : ℕ) c, t.calls[n]? = some c → c.isClosing = true → n = k)
    (hlt : k < t.calls.length) (hinner : t'.inner = t.inner) (hset : t'.calls = t.calls.set k c)
    (hstage : Stage t' (lastStored log) c) : Delivery t' log := by
  refine .after k c (hinner ▸ hcompleted) hlog (hinner ▸ hwaker) ?_ ?_ hstage
  · intro n d hn hd
    rw [hset] at hn
    rcases closing_of_set hn with rfl | hold
    · rfl
    · exact hcalls n d hold hd
  · rw [hset, List.getElem?_set_self hlt]

/-- After a publication, the call that has published tells one after the other. -/
theorem turn_after {notes : List (Note W)} {k : ℕ} {c : Call W}
    (hcompleted : t.inner.completed = true) (hlog : ∀ n, Note.published n ∈ log → n = k)
    (hwaker : t.inner.waker = none)
    (hcalls : ∀ (n : ℕ) c, t.calls[n]? = some c → c.isClosing = true → n = k)
    (hk : t.calls[k]? = some c) (hstage : Stage t (lastStored log) c) (h : Turn t t' notes) :
    Delivery t' (log ++ notes) := by
  have hlt := (List.getElem?_eq_some_iff.mp hk).1
  cases h with
  | aside hsame hw hwoken' hkept hhandle hnotes =>
    subst hnotes
    rw [List.append_nil]
    refine .after k c (hsame.trans hcompleted) hlog (hw.trans hwaker) ?_
      (hkept.kept k c hk hstage.ne_executing) ?_
    · exact fun n d hn hd => hcalls n d (hkept.closing n d hn hd) hd
    · exact hstage.of_aside hwoken' fun hg => (hhandle hg).resolve_right (by simp [hcompleted])
  | stored waker hopen => exact absurd hopen (by simp [hcompleted])
  | published n reply hopen => exact absurd hopen (by simp [hcompleted])
  | notified n waker reply hn hinner hwoken' hhandle hset hnotes =>
    subst hnotes
    rw [List.append_nil]
    obtain rfl := hcalls n _ hn rfl
    obtain rfl := Option.some.inj (hk.symm.trans hn)
    cases hstage with
    | notify _ hnone =>
      refine of_set hcompleted hlog hwaker hcalls hlt hinner hset ?_
      cases hlast : lastStored log with
      | none => exact .returned reply (hwoken'.trans hnone) hhandle
      | some w => exact .wake w reply rfl (hwoken'.trans hnone) hhandle
  | woke n waker reply hn hinner hwoken' hhandle hset hnotes =>
    subst hnotes
    rw [List.append_nil]
    obtain rfl := hcalls n _ hn rfl
    obtain rfl := Option.some.inj (hk.symm.trans hn)
    cases hstage with
    | wake w _ hlast hnone hg =>
      refine of_set hcompleted hlog hwaker hcalls hlt hinner hset ?_
      refine .returned reply ?_ fun h => hg (hhandle ▸ h)
      rw [hwoken', hnone, hlast]
      rfl

/-- **A turn delivers, or leaves owed what is owed.** -/
theorem turn {notes : List (Note W)} (h : Delivery t log) (hturn : Turn t t' notes) :
    Delivery t' (log ++ notes) := by
  cases h with
  | before hcompleted hlog hwoken hwaker hcalls =>
    exact turn_before hcompleted hlog hwoken hwaker hcalls hturn
  | after k c hcompleted hlog hwaker hcalls hk hstage =>
    exact turn_after hcompleted hlog hwaker hcalls hk hstage hturn

end Delivery

/-- Every run delivers. -/
theorem delivery_of_observed {log : List (Note W)}
    (hs : ((machine R E W).observe Task.note).Reach (t, log)) : Delivery t log := by
  refine (Machine.observe_invariant (p := fun _ _ => True) (I := Delivery) ?_ ?_ hs).2
  · rintro t rfl
    exact .before rfl (by simp) rfl rfl (by simp [Task.new])
  · intro t a t' log _ h _ hstep
    exact h.turn (step_turn hstep)

/-- **Nobody misses the completion of a task.** Beside any run, note the waker of each poll that
answers `Pending` and the index of each call that publishes. Once a call has published, no poll
answers `Pending` or leaves a waker. Once that call has returned, the wakers woken so far are
the waker of the last `Pending` poll, once, or none if there was no such poll; no waker is
stored; and nobody is parked in a `get` without having been notified. -/
theorem completion_reaches_consumers {log : List (Note W)} {k : ℕ}
    (hs : ((machine R E W).observe Task.note).Reach (t, log)) (hk : .published k ∈ log) :
    (∀ waker t', t.step (.poll waker) = some t' →
      t'.inner.waker = none ∧ ∃ event, t'.trace = t.trace ++ [event] ∧ event ≠ .pending) ∧
    (∀ reply, t.calls[k]? = some (.returned reply) →
      t.woken = (lastStored log).toList ∧ t.inner.waker = none ∧ t.handle ≠ .getting false) := by
  cases delivery_of_observed hs with
  | before hcompleted hlog => exact absurd hk (hlog k)
  | after n c hcompleted hlog hwaker hcalls hn hstage =>
    obtain rfl := hlog k hk
    constructor
    · intro waker t' hstep
      simp only [Task.step] at hstep
      split_ifs at hstep
      obtain rfl := Option.some.inj hstep
      rcases pollStep_cases waker t with ⟨hopen, -⟩ | ⟨-, inner, event, h, -, hw, he⟩
      · exact absurd hopen (by simp [hcompleted])
      · rw [h]
        exact ⟨hw.trans hwaker, event, rfl, he⟩
    · intro reply hreturned
      obtain rfl := Option.some.inj (hn.symm.trans hreturned)
      cases hstage with
      | returned _ hwoken hhandle => exact ⟨hwoken, hwaker, hhandle⟩

/-- A handle is polled twice, with different wakers; the second is woken when the task is
completed, and the first never. -/
theorem completion_reaches_last_poll :
    ∃ (t : Task ℕ ℕ ℕ) (log : List (Note ℕ)), lastStored log = some 1 ∧ t.woken = [1] ∧
      t.inner.waker = none ∧ t.handle ≠ .getting false := by
  obtain ⟨⟨t, log⟩, hs, hp⟩ := Machine.exists_reachVia_of_exec
    (M := (machine ℕ ℕ ℕ).observe Task.note) (s := (.new, [])) (fun _ _ => True)
    (fun _ _ => true) (fun _ _ _ => trivial) ⟨rfl, rfl⟩
    [.poll 0, .poll 1, .complete (.ok 7), .notify 0, .wake 0]
    (fun t => decide (.published 0 ∈ t.2) && (t.1.calls[0]?).any Call.isReturned &&
      lastStored t.2 == some 1)
    (by decide)
  simp only [Bool.and_eq_true, decide_eq_true_eq, beq_iff_eq, Option.any_eq_true] at hp
  obtain ⟨⟨hpublished, c, hc, hreturned⟩, hlast⟩ := hp
  cases c with
  | returned reply =>
    obtain ⟨hwoken, hwaker, hhandle⟩ := (completion_reaches_consumers hs hpublished).2 reply hc
    rw [hlast] at hwoken
    exact ⟨t, log, hlast, hwoken, hwaker, hhandle⟩
  | _ => exact absurd hreturned (by simp [Call.isReturned])

end TaskHandle

end QubitConcurrent
