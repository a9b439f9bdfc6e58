import QubitConcurrent.Services.RayonEnd

/-!
# Who cancels a task of a Rayon service

A task may be cancelled by its handle, and by a `shutdown_now` that has drained it from the
map; meanwhile its closure may start it. They meet in the cell of the task, which decides. A
handle that wins says so by its answer, and a `shutdown_now` that wins counts the task.

So for every task that was cancelled there is one call that has won it, or one `shutdown_now`
that has counted it; for every other task there is none (`QubitConcurrent.Rayon.Raced`).
-/

namespace QubitConcurrent

namespace Rayon

open Services

open TaskHandle (TaskHandleInner Outcome runCallable)

open ThreadPool (ShutdownReport)

variable {R E W : Type} {s s' : Service R E W} {i k : ℕ}

/-! ### Who has won -/

/-- Whether a call has won the race for its task, and published the cancellation. -/
def CancelPhase.won : CancelPhase → Bool
  | .publishing | .returned false => false
  | _ => true

/-- Whether a task was cancelled: it has a result, and was not started. -/
def Task.isCancelled (t : Task R E W) : Bool := t.cell.completed && !t.cell.started

/-- How many of the calls have won the race for a task. -/
def wins (calls : List Cancel) (i : ℕ) : ℕ := calls.countP fun c => c.task == i && c.phase.won

/-- Whether the task of a number was cancelled. -/
def cancelledAt (tasks : List (Task R E W)) (i : ℕ) : Bool := (tasks[i]?).any Task.isCancelled

section Race

variable {tasks : List (Task R E W)} {t t' : Task R E W} {l₁ l₂ : List Cancel} {c c' : Cancel}

/-- A task moves, and was cancelled as before. -/
theorem cancelledAt_set (hi : tasks[i]? = some t) (ht : t'.isCancelled = t.isCancelled) :
    cancelledAt (tasks.set i t') = cancelledAt tasks :=
  any_getElem?_set_same hi ht

/-- The task that is given a number is not cancelled. -/
theorem cancelledAt_append (ht : t.isCancelled = false) :
    cancelledAt (tasks ++ [t]) = cancelledAt tasks :=
  any_getElem?_append ht

/-- A call moves, and has won as before. -/
theorem wins_call_same (htask : c'.task = c.task) (hwon : c'.phase.won = c.phase.won) :
    wins (l₁ ++ c' :: l₂) = wins (l₁ ++ c :: l₂) := by
  funext j
  simp only [wins, List.countP_append, List.countP_cons, htask, hwon]

/-- A call that has not won the race does not count. -/
theorem wins_call_lost (hwon : c.phase.won = false) : wins (l₁ ++ c :: l₂) = wins (l₁ ++ l₂) := by
  funext j
  simp [wins, hwon]

/-- A call that has won the race counts for its task. -/
theorem wins_call_won (hwon : c.phase.won = true) (j : ℕ) :
    wins (l₁ ++ c :: l₂) j = wins (l₁ ++ l₂) j + if c.task = j then 1 else 0 := by
  rcases eq_or_ne c.task j with rfl | hne
  · simp only [wins, List.countP_append, List.countP_cons, hwon, beq_self_eq_true, Bool.and_self,
      if_true]
    omega
  · simp [wins, hne]

/-- What comes after `notify_if_terminated` has won the race. -/
theorem won_cancelAfter (r : Option Announce) : (Service.cancelAfter r).won = true := by
  cases r <;> rfl

end Race

/-! ### The race -/

/-- What a `shutdown_now` counts in its next step: itself, and the task whose cancellation it
has published. -/
def Service.claims (s : Service R E W) : Action R E → List (ℕ × ℕ)
  | .sweepNext k =>
    match s.sweeps[k]? with
    | some (.cancelling _ (some ⟨i, .returned true⟩) _) => [(k, i)]
    | _ => []
  | _ => []

/-- A `shutdown_now` counts nothing as long as the call it is in takes steps. -/
theorem claims_cancels {pending : List ℕ} {c : Cancel} {report : ShutdownReport}
    (hk : s.sweeps[k]? = some (.cancelling pending (some c) report))
    {r : Cancel × Service R E W} (hr : s.cancelNext c = some r) :
    s.claims (.sweepNext k : Action R E) = [] := by
  rw [Service.claims]
  split
  · next i _ hk' =>
    obtain rfl : c = ⟨i, .returned true⟩ := by
      have heq := Option.some.inj (hk.symm.trans hk')
      simp only [Sweep.cancelling.injEq, Option.some.injEq] at heq
      exact heq.2.1
    exact absurd hr (by simp [Service.cancelNext])
  · rfl

/-- A cancelled task delivers that it was. -/
def Task.Delivers (t : Task R E W) : Prop :=
  t.isCancelled = true → t.cell.result = some (.error .cancelled)

/-- **The race for the tasks**, given what was counted so far: for a task that was cancelled
there is one call that has won it, or one `shutdown_now` that has counted it; for the others
there is none. -/
structure Raced (s : Service R E W) (log : List (ℕ × ℕ)) : Prop where
  /-- One winner for each cancelled task. -/
  winner : ∀ i, wins s.cancelCalls i + (log.map Prod.snd).count i =
    (cancelledAt s.tasks i).toNat
  /-- Cancelled tasks deliver that they were. -/
  delivers : ∀ t ∈ s.tasks, t.Delivers

namespace Raced

variable {log : List (ℕ × ℕ)} {t t' : Task R E W} {l₁ l₂ : List Cancel}

/-- A step that changes neither who has won nor what was cancelled. -/
theorem keep (h : Raced s log) (hwins : wins s'.cancelCalls = wins s.cancelCalls)
    (hcancelled : cancelledAt s'.tasks = cancelledAt s.tasks)
    (hdelivers : ∀ t ∈ s'.tasks, t.Delivers) : Raced s' log where
  winner i := by rw [hwins, hcancelled, h.winner]
  delivers := hdelivers

/-- A step that moves no task and lets nobody win. -/
theorem beside (h : Raced s log) (hwins : wins s'.cancelCalls = wins s.cancelCalls)
    (htasks : s'.tasks = s.tasks) : Raced s' log :=
  h.keep hwins (by rw [htasks]) (htasks ▸ h.delivers)

/-- Where a task moves, cancelled tasks still deliver that they were. -/
theorem delivers_set (h : Raced s log) (ht : t'.Delivers) :
    ∀ u ∈ s.tasks.set i t', u.Delivers := by
  intro u hu
  rcases List.mem_or_eq_of_mem_set hu with hold | rfl
  · exact h.delivers u hold
  · exact ht

/-- A task moves that is cancelled as before, with the same result if it is. -/
theorem set (h : Raced s log) (hi : s.tasks[i]? = some t) (htasks : s'.tasks = s.tasks.set i t')
    (hwins : wins s'.cancelCalls = wins s.cancelCalls)
    (ht : t'.isCancelled = t.isCancelled)
    (hresult : t.isCancelled = true → t'.cell.result = t.cell.result) : Raced s' log := by
  refine h.keep hwins (by rw [htasks, cancelledAt_set hi ht]) ?_
  rw [htasks]
  refine h.delivers_set fun hcancelled => ?_
  rw [ht] at hcancelled
  exact (hresult hcancelled).trans (h.delivers t (List.mem_of_getElem? hi) hcancelled)

/-- The closure of a task keeps the race. -/
theorem runNext (h : Raced s log) (hstep : s.runNext i = some s') : Raced s' log := by
  cases runNext_move hstep with
  | skips cell hi hcompleted => exact h.set hi rfl rfl rfl fun _ => rfl
  | starts cell hi hcompleted =>
    refine h.set hi rfl rfl ?_ fun _ => rfl
    simp [Task.isCancelled, hcompleted]
  | unregisters cell hi => exact h.set hi rfl rfl rfl fun _ => rfl
  | unqueues cell hi => exact h.set hi rfl rfl rfl fun _ => rfl
  | leaves cell hi => exact h.set hi rfl rfl rfl fun _ => rfl
  | announces cell a hi => exact h.set hi rfl rfl rfl fun _ => rfl

/-- The call that spawns the closure of a task keeps the race. -/
theorem spawn (h : Raced s log) (hstep : s.spawn i = some s') : Raced s' log := by
  rw [Service.spawn] at hstep
  split at hstep
  · next cell hi =>
    obtain rfl := Option.some.inj hstep
    exact h.set hi rfl rfl rfl fun _ => rfl
  · exact absurd hstep (by simp)

/-- A callable that ends belongs to a task that was started. -/
theorem callReturns (h : Raced s log) (hs : Sound s) {outcome : Outcome R E}
    (hstep : s.callReturns i outcome = some s') : Raced s' log := by
  rw [Service.callReturns] at hstep
  split at hstep
  · next cell hi =>
    obtain rfl := Option.some.inj hstep
    obtain ⟨-, hstarted, hcompleted⟩ := hs.agrees _ (List.mem_of_getElem? hi)
    simp only at hstarted hcompleted
    refine h.set hi rfl rfl ?_ fun hcancelled => ?_
    · simp [Task.isCancelled, TaskHandleInner.complete, TaskHandleInner.finish, hstarted,
        hcompleted]
    · simp [Task.isCancelled, hcompleted] at hcancelled
  · exact absurd hstep (by simp)

/-- A handle that is asked to cancel has not won anything yet. -/
theorem cancel (h : Raced s log) (hstep : s.cancel i = some s') : Raced s' log := by
  rw [Service.cancel] at hstep
  split_ifs at hstep
  obtain rfl := Option.some.inj hstep
  refine h.beside ?_ rfl
  rw [Service.cancelCalls, List.append_assoc]
  exact wins_call_lost rfl

/-- **A call that cancels keeps the race**: it wins exactly if the task was open. -/
theorem cancelNext (h : Raced s log) {c : Cancel} {r : Cancel × Service R E W}
    (hstep : s.cancelNext c = some r) (hbefore : s.cancelCalls = l₁ ++ c :: l₂)
    (htasks : s'.tasks = r.2.tasks) (hafter : s'.cancelCalls = l₁ ++ r.1 :: l₂) :
    Raced s' log := by
  cases cancelNext_move hstep with
  | publishes i t hi hopen =>
    obtain ⟨hlt, -⟩ := List.getElem?_eq_some_iff.mp hi
    obtain ⟨hstarted, hcompleted⟩ := Task.isOpen_iff.mp hopen
    constructor
    · intro j
      have hold := h.winner j
      rw [hbefore, wins_call_lost rfl] at hold
      have hnew := congrFun (any_getElem?_set hi Task.isCancelled
        { t with cell := t.cell.cancel.2 }) j
      have hset : s'.tasks = s.tasks.set i { t with cell := t.cell.cancel.2 } := htasks
      rw [hafter, wins_call_won rfl, cancelledAt, hset]
      simp only at hnew ⊢
      rw [hnew]
      rcases eq_or_ne i j with rfl | hne
      · have hbefore : cancelledAt s.tasks i = false := by
          simp [cancelledAt, hi, Task.isCancelled, hcompleted]
        rw [hbefore, Bool.toNat_false] at hold
        rw [Function.update_self, if_pos rfl, Task.isCancelled, Task.cancel_of_open hopen]
        simp only [hstarted, Bool.not_false, Bool.and_self, Bool.toNat_true]
        omega
      · rw [Function.update_of_ne hne.symm, if_neg hne, ← cancelledAt, ← hold]
        omega
    · rw [htasks]
      refine h.delivers_set fun _ => ?_
      rw [Task.cancel_of_open hopen]
  | loses i t hi hopen =>
    exact h.beside (by rw [hafter, hbefore]; exact wins_call_same rfl rfl) htasks
  | unregisters i => exact h.beside (by rw [hafter, hbefore]; exact wins_call_same rfl rfl) htasks
  | unqueues i => exact h.beside (by rw [hafter, hbefore]; exact wins_call_same rfl rfl) htasks
  | leaves i =>
    refine h.beside ?_ htasks
    rw [hafter, hbefore]
    exact wins_call_same rfl (won_cancelAfter _)
  | announces i a =>
    refine h.beside ?_ htasks
    rw [hafter, hbefore]
    exact wins_call_same rfl (won_cancelAfter _)

/-- A call of a handle keeps the race. -/
theorem handleNext (h : Raced s log) (hstep : s.handleNext k = some s') : Raced s' log := by
  rw [Service.handleNext] at hstep
  split at hstep
  · next c hk =>
    obtain ⟨r, hr, rfl⟩ := Option.map_eq_some_iff.mp hstep
    obtain ⟨-, ⟨-, hcancels, hsweeps⟩, -⟩ := cancelNext_spec hr
    obtain ⟨l₁, l₂, hbefore, hafter⟩ := cancelCalls_cancel hk
    refine h.cancelNext hr hbefore rfl ?_
    rw [← hafter, Service.cancelCalls, hcancels, hsweeps]
  · exact absurd hstep (by simp)

/-- A `shutdown_now` that moves is in another call, and both have won nothing. -/
theorem setSweep (h : Raced s log) {w w' : Sweep} (hk : s.sweeps[k]? = some w)
    {c : Core Await} (hlost : ∀ v ∈ [w, w'], ∀ c ∈ v.current, c.phase.won = false) :
    Raced ({ s with toCore := c }.setSweep k w') log := by
  obtain ⟨l₁, l₂, hbefore, hafter⟩ := cancelCalls_sweep hk
  have hnone : ∀ v ∈ [w, w'], wins (l₁ ++ v.current.toList ++ l₂) = wins (l₁ ++ l₂) := by
    intro v hv
    cases hcase : v.current with
    | none => simp
    | some d =>
      rw [Option.toList_some, List.append_assoc]
      exact wins_call_lost (hlost v hv d hcase)
  refine h.beside ?_ rfl
  have hcalls : ({ s with toCore := c }.setSweep k w').cancelCalls =
      l₁ ++ w'.current.toList ++ l₂ := hafter w'
  rw [hcalls, hbefore, hnone w (by simp), hnone w' (by simp)]

/-- A `shutdown_now` that has released the submission lock keeps the race: what it counts it
has won. -/
theorem sweepNext (h : Raced s log) (hstep : s.sweepNext k = some s') :
    Raced s' (log ++ s.claims (.sweepNext k : Action R E)) := by
  cases sweepNext_move hstep with
  | counts pending i answer report hk =>
    cases answer with
    | false =>
      have hclaims : s.claims (.sweepNext k : Action R E) = [] := by simp [Service.claims, hk]
      rw [hclaims, List.append_nil]
      exact h.setSweep hk (by simp [Sweep.current, CancelPhase.won])
    | true =>
      have hclaims : s.claims (.sweepNext k : Action R E) = [(k, i)] := by
        simp [Service.claims, hk]
      obtain ⟨l₁, l₂, hbefore, hafter⟩ := cancelCalls_sweep hk
      have hcalls := hafter (.cancelling pending none (Service.count report))
      simp only [Sweep.current, Option.toList_some, Option.toList_none, List.append_assoc,
        List.singleton_append, List.nil_append] at hbefore hcalls
      rw [hclaims]
      refine ⟨fun j => ?_, h.delivers⟩
      have hold := h.winner j
      rw [hbefore, wins_call_won rfl] at hold
      have hcalls' : (s.setSweep k (.cancelling pending none
          (if true then Service.count report else report))).cancelCalls = l₁ ++ l₂ := hcalls
      refine Eq.trans ?_ hold
      rw [hcalls', List.map_append, List.count_append]
      simp only [List.map_cons, List.map_nil, List.count_singleton, beq_iff_eq]
      omega
  | cancels pending c report hk r hr =>
    obtain ⟨-, ⟨-, hcancels, hsweeps⟩, -⟩ := cancelNext_spec hr
    obtain ⟨l₁, l₂, hbefore, hafter⟩ := cancelCalls_sweep hk
    rw [claims_cancels hk hr, List.append_nil]
    have hbefore' : s.cancelCalls = l₁ ++ c :: l₂ := by simpa [Sweep.current] using hbefore
    refine h.cancelNext hr hbefore' rfl ?_
    rw [Service.cancelCalls, Service.setSweep, hcancels, hsweeps, hafter]
    simp [Sweep.current]
  | picks i pending report hk =>
    have hclaims : s.claims (.sweepNext k : Action R E) = [] := by simp [Service.claims, hk]
    rw [hclaims, List.append_nil]
    exact h.setSweep hk (by simp [Sweep.current, CancelPhase.won])
  | ends report hk =>
    have hclaims : s.claims (.sweepNext k : Action R E) = [] := by simp [Service.claims, hk]
    rw [hclaims, List.append_nil]
    exact h.setSweep hk (by simp [Sweep.current])
  | announces a report hk =>
    have hclaims : s.claims (.sweepNext k : Action R E) = [] := by simp [Service.claims, hk]
    have hbefore : (Sweep.announcing a report).current = none := rfl
    rw [hclaims, List.append_nil]
    exact h.setSweep hk (by simp [hbefore, current_sweepAfter])

/-- The holder of the submission lock keeps the race. -/
theorem holderNext (h : Raced s log) {holder : Holder} {order : List ℕ}
    (hstep : s.holderNext order holder = some s') : Raced s' log := by
  cases holder with
  | submitChecking =>
    obtain rfl := Option.some.inj hstep
    split_ifs
    · exact h.beside rfl rfl
    · exact h.beside rfl rfl
  | submitNumbering =>
    obtain rfl := Option.some.inj hstep
    refine h.keep rfl (cancelledAt_append rfl) fun t ht => ?_
    rcases List.mem_append.mp ht with hold | hnew
    · exact h.delivers t hold
    · rw [List.mem_singleton.mp hnew]
      exact fun hcancelled => absurd hcancelled (by simp [Task.isCancelled, TaskHandleInner.new])
  | submitReleasing i =>
    obtain ⟨cell, hi, rfl⟩ := holderNext_submitReleasing hstep
    exact h.set hi rfl rfl rfl fun _ => rfl
  | shutdownAnnouncing a =>
    obtain rfl := holderNext_shutdownAnnouncing hstep
    exact h.beside rfl rfl
  | shutdownNowDraining queued running =>
    obtain ⟨-, rfl⟩ := holderNext_shutdownNowDraining hstep
    exact h.beside rfl rfl
  | shutdownNowReleasing pending queued running =>
    obtain rfl := Option.some.inj hstep
    refine h.beside (congrArg wins ?_) rfl
    rw [Service.cancelCalls, Service.cancelCalls, List.filterMap_append]
    simp [Service.release, Sweep.current]
  | _ =>
    obtain rfl := Option.some.inj hstep
    exact h.beside rfl rfl

/-- **Every step keeps the race.** -/
theorem step (h : Raced s log) (hs : Sound s) {a : Action R E} (hstep : s.step a = some s') :
    Raced s' (log ++ s.claims a) := by
  cases a with
  | sweepNext k => exact h.sweepNext hstep
  | submit | shutdown | shutdownNow =>
    simp only [Service.step, Service.acquire] at hstep
    split_ifs at hstep
    obtain rfl := Option.some.inj hstep
    exact (List.append_nil log).symm ▸ h.beside rfl rfl
  | holderNext order =>
    obtain ⟨holder, -, hnext⟩ := Option.bind_eq_some_iff.mp hstep
    exact (List.append_nil log).symm ▸ h.holderNext hnext
  | spawn i => exact (List.append_nil log).symm ▸ h.spawn hstep
  | runNext i => exact (List.append_nil log).symm ▸ h.runNext hstep
  | callReturns i outcome => exact (List.append_nil log).symm ▸ h.callReturns hs hstep
  | cancel i => exact (List.append_nil log).symm ▸ h.cancel hstep
  | handleNext k => exact (List.append_nil log).symm ▸ h.handleNext hstep
  | await | awaitNext k | awaitDrop k | isTerminated | queryNext k =>
    obtain ⟨c, -, rfl⟩ := step_turn rfl hstep
    exact (List.append_nil log).symm ▸ h.beside rfl rfl

end Raced

/-- The service under observation, with an entry for every task a `shutdown_now` counts. -/
abbrev counted (R E W : Type) : Machine (Service R E W × List (ℕ × ℕ)) (Action R E) :=
  (machine R E W).observe fun s a _ => s.claims a

/-- **Over every run each task has one winner at most**, and one exactly if it was cancelled. -/
theorem raced_of_reach {t : Service R E W × List (ℕ × ℕ)} (ht : (counted R E W).Reach t) :
    (machine R E W).Reach t.1 ∧ Raced t.1 t.2 := by
  refine Machine.observe_invariant (M := machine R E W) (p := fun _ _ => True) ?_ ?_ ht
  · rintro s rfl
    exact ⟨fun i => rfl, by simp [Service.new]⟩
  · intro s a s' log hs h _ hstep
    exact h.step (sound_of_reach hs) hstep

end Rayon

end QubitConcurrent
