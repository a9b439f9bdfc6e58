import QubitConcurrent.Services.TokioAborts

/-!
# What a `shutdown_now` of a Tokio service reports

The report counts the abort handles that were signalled, and puts it beside what
`active_tasks` was. The list keeps the handles of tasks that have ended, and `active_tasks` does
not count these. So more may have been cancelled than were running, by no more than the handles
of tasks whose guards had been dropped (`QubitConcurrent.Tokio.Service.Explains`).
-/

namespace QubitConcurrent

namespace Tokio

open Services

open ThreadPool (ShutdownReport)

open TaskHandle (TaskResult)

variable {R E : Type} {poll : Task.Poll R E} {s s' : Service R E} {i : ℕ}

/-! ### What the report counts -/

/-- How many tasks have not been taken out of `active_tasks`. -/
def unreleased (tasks : List (Task R E)) : ℕ := tasks.countP fun t => !t.released

/-- **What a report rests on**: there was a state, with the lock held by the `shutdown_now` that
was about to read `active_tasks`, and there are the handles it has drained later, each of a
task that had been admitted, none of them twice. They are no more than it has read, but for
those of tasks whose guards had been dropped by then. -/
def Service.Explains (poll : Task.Poll R E) (s : Service R E) (running : ℕ)
    (handles : List ℕ) : Prop :=
  ∃ s₀ : Service R E, (machine poll).Reach s₀ ∧ (machine poll).Later s₀ s ∧
    s₀.submissionLock = some .shutdownNowReading ∧ running = s₀.activeTasks ∧
    handles.Nodup ∧ (∀ i ∈ handles, i < s₀.tasks.length) ∧
    handles.length ≤ running + (handles.filter fun i => s₀.releasedAt i).length

/-- **A report that is explained**: nothing was queued, what was running was read, and what was
cancelled is the number of handles that were signalled. -/
def Service.Justifies (poll : Task.Poll R E) (s : Service R E) (report : ShutdownReport) : Prop :=
  ∃ running handles, report = ⟨0, running, handles.length⟩ ∧ s.Explains poll running handles ∧
    ∀ i ∈ handles, s.abortedAt i = true

/-- `active_tasks` counts the tasks whose guards have not taken them out of it, and the one
that is being admitted. -/
def Counted (s : Service R E) : Prop :=
  s.activeTasks = unreleased s.tasks + if s.submissionLock = some .submitReleasing then 1 else 0

/-- **What `abort_handles` holds**: each task's handle once, from the moment its submission has
put it there until a `shutdown_now` drains it. -/
structure Tracked (s : Service R E) : Prop where
  /-- No handle is there twice. -/
  nodup : s.abortHandles.Nodup
  /-- Handles are there of tasks whose submissions have put them there. -/
  listed : ∀ i ∈ s.abortHandles, s.returnedAt i = true
  /-- They stay there until a `shutdown_now` drains them, whatever becomes of the tasks. -/
  kept : s.hasDrained = false → ∀ i, s.returnedAt i = true → i ∈ s.abortHandles

/-- A task moves, and is released as before. -/
theorem unreleased_set {t t' : Task R E} (hi : s.tasks[i]? = some t)
    (ht : t'.released = t.released) : unreleased (s.tasks.set i t') = unreleased s.tasks := by
  obtain ⟨l₁, l₂, hsplit, rfl⟩ := exists_split_of_getElem? hi
  simp [unreleased, hsplit, List.countP_cons, ht]

/-- A guard releases its task. -/
theorem unreleased_release {t t' : Task R E} (hi : s.tasks[i]? = some t)
    (ht : t.released = false) (ht' : t'.released = true) :
    unreleased (s.tasks.set i t') + 1 = unreleased s.tasks := by
  obtain ⟨l₁, l₂, hsplit, rfl⟩ := exists_split_of_getElem? hi
  simp only [unreleased, hsplit, List.set_append_right _ _ le_rfl, Nat.sub_self,
    List.set_cons_zero, List.countP_append, List.countP_cons, ht, ht']
  simp
  omega

/-- An abort releases nothing. -/
theorem unreleased_abort (s : Service R E) (i : ℕ) :
    unreleased (s.abort i).tasks = unreleased s.tasks := by
  rw [Service.abort]
  split
  · next t hi => exact unreleased_set hi rfl
  · rfl

namespace Counted

/-- A step that changes neither the count nor what is counted. -/
theorem keep (h : Counted s) (hactive : s'.activeTasks = s.activeTasks)
    (htasks : unreleased s'.tasks = unreleased s.tasks)
    (hlock : s'.submissionLock = some .submitReleasing ↔
      s.submissionLock = some .submitReleasing) : Counted s' := by
  rw [Counted, hactive, htasks, h]
  simp only [hlock]

/-- The holder of the submission lock keeps the count. -/
theorem holderNext (h : Counted s) {holder : Holder} (hlock : s.submissionLock = some holder) :
    Counted (s.holderNext holder) := by
  cases holder with
  | submitChecking =>
    rw [Service.holderNext]
    split_ifs
    · exact h.keep rfl rfl (by simp [Service.release, hlock])
    · exact h.keep rfl rfl (by simp [Service.hold, hlock])
  | submitCounting =>
    have hold : s.activeTasks = unreleased s.tasks := by simpa [Counted, hlock] using h
    simp [Counted, Service.holderNext, Service.hold, Core.enter, hold]
  | submitReleasing =>
    have hold : s.activeTasks = unreleased s.tasks + 1 := by simpa [Counted, hlock] using h
    simp [Counted, Service.holderNext, unreleased, Task.new, Task.released] at hold ⊢
    exact hold
  | shutdownNowAborting pending report =>
    cases pending with
    | nil => exact h.keep rfl rfl (by simp [Service.holderNext, Service.hold, hlock])
    | cons j pending =>
      refine h.keep ?_ (unreleased_abort s j) (by simp [Service.holderNext, Service.hold, hlock])
      exact congrArg Core.activeTasks (abort_beside s j).1
  | shutdownAnnouncing a | shutdownNowAnnouncing a report =>
    have hsame := Core.activeTasks_announce s.toCore a
    rw [Service.holderNext]
    split
    · next a' c hc =>
      rw [hc] at hsame
      exact h.keep hsame rfl (by simp [Service.hold, hlock])
    · next c hc =>
      rw [hc] at hsame
      exact h.keep hsame rfl (by simp [Service.release, hlock])
  | _ => exact h.keep rfl rfl (by simp [Service.holderNext, Service.hold, hlock])

/-- **Every step keeps the count.** -/
theorem step (hpoll : Task.Modest poll) (h : Counted s) {a : Action R E}
    (hstep : s.step poll a = some s') : Counted s' := by
  cases step_move hstep with
  | takes _ holder hfree hh =>
    refine h.keep rfl rfl ?_
    rcases hh with rfl | rfl | rfl <;> simp [Service.hold, hfree]
  | holds holder hlock => exact h.holderNext hlock
  | task _ i t t' hi ht notes hnotes =>
    exact h.keep rfl (unreleased_set hi (ht.released hpoll)) Iff.rfl
  | lists i future closure aborted hi hfree => exact h.keep rfl (unreleased_set hi rfl) Iff.rfl
  | leaves i submit output closure aborted hi =>
    have hrelease := unreleased_release hi rfl
      (released_guardAfter submit output s.leave.1 closure aborted)
    have hold : s.activeTasks = unreleased s.tasks +
      if s.submissionLock = some .submitReleasing then 1 else 0 := h
    show s.activeTasks - 1 = unreleased (s.tasks.set i _) +
      if s.submissionLock = some .submitReleasing then 1 else 0
    omega
  | announces i submit a output closure aborted hi =>
    refine h.keep (Core.activeTasks_announce ..) (unreleased_set hi ?_) Iff.rfl
    rw [released_guardAfter]
    rfl
  | waits _ c hturn => exact h.keep hturn.activeTasks rfl Iff.rfl

end Counted

/-- Over every run, the count is right. -/
theorem counted_of_reach (hpoll : Task.Modest poll) (hs : (machine poll).Reach s) :
    Counted s := by
  refine hs.invariant (I := Counted) ?_ fun s a s' _ h _ hstep => h.step hpoll hstep
  rintro s rfl
  rfl

namespace Tracked

/-- A step that leaves `abort_handles` alone, and whoever has drained it. -/
theorem keep (h : Tracked s) (hhandles : s'.abortHandles = s.abortHandles)
    (hreturned : s'.returnedAt = s.returnedAt)
    (hdrained : s'.hasDrained = false → s.hasDrained = false) : Tracked s' where
  nodup := hhandles ▸ h.nodup
  listed i hi := hreturned ▸ h.listed i (hhandles ▸ hi)
  kept hopen i hi := hhandles ▸ h.kept (hdrained hopen) i (hreturned ▸ hi)

/-- The list was drained. -/
theorem drain (h : Tracked s) (hhandles : s'.abortHandles = [] ∨
    s'.abortHandles = s.abortHandles) (hreturned : s'.returnedAt = s.returnedAt)
    (hdrained : s'.hasDrained = true) : Tracked s' := by
  refine ⟨?_, fun i hi => ?_, fun hopen => absurd (hopen.symm.trans hdrained) Bool.false_ne_true⟩
  · rcases hhandles with hnil | hsame
    · rw [hnil]
      exact List.nodup_nil
    · exact hsame ▸ h.nodup
  · rcases hhandles with hnil | hsame
    · rw [hnil] at hi
      exact absurd hi (by simp)
    · exact hreturned ▸ h.listed i (hsame ▸ hi)

/-- The holder of the submission lock drains the list, or leaves it alone. -/
theorem holderNext (h : Tracked s) {holder : Holder} (hlock : s.submissionLock = some holder) :
    Tracked (s.holderNext holder) := by
  -- the list was not drained before if it was not drained after
  have hopen : ∀ {u : Service R E}, u.hasDrained = false →
      (u.replies.any Reply.isShutdownNow = false → s.replies.any Reply.isShutdownNow = false) →
      holder.hasDrained = false → s.hasDrained = false := by
    intro u hu hreplies hholder
    rw [Service.hasDrained, hreplies (Bool.or_eq_false_iff.mp hu).1, hlock, Option.any_some,
      hholder]
    rfl
  cases holder with
  | submitChecking =>
    rw [Service.holderNext]
    split_ifs
    · refine h.keep rfl rfl fun hu => hopen hu ?_ rfl
      simp [Service.release, Reply.isShutdownNow]
    · exact h.keep rfl rfl fun hu => hopen hu id rfl
  | submitReleasing =>
    refine h.keep rfl (funext fun i => ?_) fun hu => hopen hu id rfl
    rw [Bool.eq_iff_iff]
    refine ⟨Reaching.returnedAt_append, fun hi => ?_⟩
    rw [Service.returnedAt, Service.holderNext,
      List.getElem?_append_left (lt_of_returnedAt hi)]
    exact hi
  | submitCounting | shutdownStoring | shutdownNowStoring | shutdownNowReading =>
    exact h.keep rfl rfl fun hu => hopen hu id rfl
  | shutdownAnnouncing a =>
    rw [Service.holderNext]
    split
    · exact h.keep rfl rfl fun hu => hopen hu id rfl
    · refine h.keep rfl rfl fun hu => hopen hu ?_ rfl
      simp [Service.release, Reply.isShutdownNow]
  | shutdownNowLocking running =>
    exact h.drain (Or.inl rfl) rfl (by simp [Service.hasDrained, Service.holderNext,
      Service.hold, Holder.hasDrained])
  | shutdownNowAborting pending report =>
    cases pending with
    | nil => exact h.drain (Or.inr rfl) rfl (by simp [Service.hasDrained, Service.holderNext,
        Service.hold, Holder.hasDrained])
    | cons j pending =>
      refine h.drain (Or.inr ?_) (abort_spec s j).1 (by simp [Service.hasDrained,
        Service.holderNext, Service.hold, Holder.hasDrained])
      show (s.abort j).abortHandles = s.abortHandles
      rw [Service.abort]
      split <;> rfl
  | shutdownNowAnnouncing a report =>
    rw [Service.holderNext]
    split
    · exact h.drain (Or.inr rfl) rfl (by simp [Service.hasDrained, Service.hold,
        Holder.hasDrained])
    · exact h.drain (Or.inr rfl) rfl (by simp [Service.hasDrained, Service.release,
        Reply.isShutdownNow])

/-- **Every step keeps track of the handles.** -/
theorem step (hpoll : Task.Modest poll) (h : Tracked s) {a : Action R E}
    (hstep : s.step poll a = some s') : Tracked s' := by
  cases step_move hstep with
  | takes _ holder hfree hh =>
    refine h.keep rfl rfl fun hu => ?_
    rw [Service.hasDrained, hfree, Option.any_none, Bool.or_false]
    exact (Bool.or_eq_false_iff.mp hu).1
  | holds holder hlock => exact h.holderNext hlock
  | task _ i t t' hi ht notes hnotes =>
    refine h.keep rfl (returnedAt_set hi rfl (ht.returned hpoll)) fun hu => ?_
    rw [Service.hasDrained, List.any_append, Bool.or_eq_false_iff, Bool.or_eq_false_iff] at hu
    rw [Service.hasDrained, Bool.or_eq_false_iff]
    exact ⟨hu.1.1, hu.2⟩
  | lists i future closure aborted hi hfree =>
    have hset := any_getElem?_set hi (fun t => t.submit == .returned)
      ⟨.returned, future, closure, aborted⟩
    have hnew : s.returnedAt i = false := by
      rw [Service.returnedAt, hi]
      rfl
    have hfresh : i ∉ s.abortHandles := by
      intro hmem
      exact Bool.false_ne_true (hnew.symm.trans (h.listed i hmem))
    refine ⟨?_, fun j hj => ?_, fun hu j hj => ?_⟩
    · exact List.nodup_append.mpr ⟨h.nodup, List.nodup_singleton i, by
        rintro j hj k hk rfl
        exact hfresh (List.mem_singleton.mp hk ▸ hj)⟩
    · refine (congrFun hset j).trans ?_
      rcases List.mem_append.mp hj with hold | hlast
      · have hne : j ≠ i := fun heq => hfresh (heq ▸ hold)
        rw [Function.update_of_ne hne]
        exact h.listed j hold
      · rw [List.mem_singleton.mp hlast, Function.update_self]
        rfl
    · have hj' := (congrFun hset j).symm.trans hj
      rcases eq_or_ne j i with rfl | hne
      · exact List.mem_append_right _ (List.mem_singleton_self j)
      · rw [Function.update_of_ne hne] at hj'
        refine List.mem_append_left _ (h.kept ?_ j hj')
        rw [Service.hasDrained, List.any_append, Bool.or_eq_false_iff,
          Bool.or_eq_false_iff] at hu
        rw [Service.hasDrained, Bool.or_eq_false_iff]
        exact ⟨hu.1.1, hu.2⟩
  | leaves i submit output closure aborted hi =>
    exact h.keep rfl (returnedAt_set hi rfl (by rfl)) id
  | announces i submit a output closure aborted hi =>
    exact h.keep rfl (returnedAt_set hi rfl (by rfl)) id
  | waits _ c hturn => exact h.keep rfl rfl id

end Tracked

/-- Over every run, the handles are tracked. -/
theorem tracked_of_reach (hpoll : Task.Modest poll) (hs : (machine poll).Reach s) :
    Tracked s := by
  refine hs.invariant (I := Tracked) ?_ fun s a s' _ h _ hstep => h.step hpoll hstep
  rintro s rfl
  exact ⟨List.nodup_nil, by simp [Service.new], fun _ i hi =>
    absurd (lt_of_returnedAt hi) (Nat.not_lt_zero i)⟩

/-- No signal is taken back. -/
theorem abortedAt_step (hpoll : Task.Modest poll) {a : Action R E}
    (hstep : s.step poll a = some s') (hi : s.abortedAt i = true) : s'.abortedAt i = true := by
  cases step_move hstep with
  | takes | waits => exact hi
  | holds holder hlock =>
    cases holder with
    | submitReleasing =>
      exact (congrFun Reaching.abortedAt_append i).trans hi
    | shutdownNowAborting pending report =>
      cases pending with
      | nil => exact hi
      | cons j pending => exact (abort_spec s j).2.2.1 i hi
    | submitChecking | shutdownAnnouncing a | shutdownNowAnnouncing a report =>
      rw [Service.holderNext]
      split <;> exact hi
    | _ => exact hi
  | task _ j t t' hj ht => exact abortedAt_set hj rfl (ht.aborted hpoll) i hi
  | lists j future closure aborted hj => exact abortedAt_set hj rfl (by exact id) i hi
  | leaves j submit output closure aborted hj => exact abortedAt_set hj rfl (by exact id) i hi
  | announces j submit a output closure aborted hj => exact abortedAt_set hj rfl (by exact id) i hi

/-- What explains a report goes on to explain it. -/
theorem Service.Explains.step {running : ℕ} {handles : List ℕ} {a : Action R E}
    (h : s.Explains poll running handles) (hstep : s.step poll a = some s') :
    s'.Explains poll running handles := by
  obtain ⟨s₀, hreach, hlater, hrest⟩ := h
  exact ⟨s₀, hreach, hlater.tail ⟨a, hstep⟩, hrest⟩

/-- A report that is justified stays so. -/
theorem Service.Justifies.step (hpoll : Task.Modest poll) {report : ShutdownReport}
    {a : Action R E} (h : s.Justifies poll report) (hstep : s.step poll a = some s') :
    s'.Justifies poll report := by
  obtain ⟨running, handles, heq, hexplains, haborted⟩ := h
  exact ⟨running, handles, heq, hexplains.step hstep,
    fun i hi => abortedAt_step hpoll hstep (haborted i hi)⟩

/-- **What the reports rest on**, those that were returned and those that are on their way. -/
structure Reporting (poll : Task.Poll R E) (s : Service R E) : Prop where
  /-- Who has read `active_tasks` has read it in a state that had as many tasks. -/
  reading : ∀ running, s.submissionLock = some (.shutdownNowLocking running) →
    ∃ s₀ : Service R E, (machine poll).Reach s₀ ∧ (machine poll).Later s₀ s ∧
      s₀.submissionLock = some .shutdownNowReading ∧ running = s₀.activeTasks ∧
      s.tasks.length = s₀.tasks.length
  /-- Who has drained the list signals what it has drained. -/
  aborting : ∀ pending report, s.submissionLock = some (.shutdownNowAborting pending report) →
    ∃ running handles, report = ⟨0, running, handles.length⟩ ∧ s.Explains poll running handles ∧
      ∀ i ∈ handles, i < s.tasks.length ∧ (s.abortedAt i = true ∨ i ∈ pending)
  /-- Who has signalled has its report. -/
  announcing : ∀ a report, s.submissionLock = some (.shutdownNowAnnouncing a report) →
    s.Justifies poll report
  /-- So has who has returned. -/
  returned : ∀ report, .shutdownNow report ∈ s.replies → s.Justifies poll report

/-- The handles in the list are no more than `active_tasks` was, but for those of tasks whose
guards had been dropped by then. -/
theorem length_le_of_reading {s₀ : Service R E} (hpoll : Task.Modest poll)
    (hs₀ : (machine poll).Reach s₀) (hlock : s₀.submissionLock = some .shutdownNowReading)
    {handles : List ℕ} (hnodup : handles.Nodup) (hlt : ∀ i ∈ handles, i < s₀.tasks.length) :
    handles.length ≤ s₀.activeTasks + (handles.filter fun i => s₀.releasedAt i).length := by
  have hcounted : s₀.activeTasks = unreleased s₀.tasks := by
    simpa [Counted, hlock] using counted_of_reach hpoll hs₀
  have hrest : (handles.filter fun i => !s₀.releasedAt i).length ≤ unreleased s₀.tasks := by
    refine length_le_countP (hnodup.filter _) fun i hi => ?_
    obtain ⟨hmem, hnot⟩ := List.mem_filter.mp hi
    have hget := List.getElem?_eq_getElem (hlt i hmem)
    rw [Service.releasedAt, hget, Option.any_some] at hnot
    rwa [hget, Option.any_some]
  have hsplit := handles.length_eq_length_filter_add fun i => s₀.releasedAt i
  omega

namespace Reporting

/-- A step of nobody who holds the submission lock, and of nobody who takes it. -/
theorem beside (hpoll : Task.Modest poll) (h : Reporting poll s) {a : Action R E}
    (hstep : s.step poll a = some s') (hlock : s'.submissionLock = s.submissionLock)
    (hlength : s'.tasks.length = s.tasks.length)
    (hreplies : ∀ report, .shutdownNow report ∈ s'.replies → .shutdownNow report ∈ s.replies) :
    Reporting poll s' where
  reading running hrunning := by
    obtain ⟨s₀, hreach, hlater, hold, heq, hsame⟩ := h.reading running (hlock.symm.trans hrunning)
    exact ⟨s₀, hreach, hlater.tail ⟨a, hstep⟩, hold, heq, hlength.trans hsame⟩
  aborting pending report hpending := by
    obtain ⟨running, handles, heq, hexplains, haborted⟩ :=
      h.aborting pending report (hlock.symm.trans hpending)
    exact ⟨running, handles, heq, hexplains.step hstep,
      fun i hi => ⟨hlength ▸ (haborted i hi).1,
        (haborted i hi).2.imp_left (abortedAt_step hpoll hstep)⟩⟩
  announcing a' report hannouncing :=
    (h.announcing a' report (hlock.symm.trans hannouncing)).step hpoll hstep
  returned report hreport := (h.returned report (hreplies report hreport)).step hpoll hstep

/-- The submission lock goes to somebody who has read nothing, or is released. -/
theorem pass (hpoll : Task.Modest poll) (h : Reporting poll s) {a : Action R E}
    (hstep : s.step poll a = some s')
    (hlock : s'.submissionLock.all fun g => g matches .submitChecking | .submitCounting |
      .submitReleasing | .shutdownStoring | .shutdownAnnouncing _ | .shutdownNowStoring |
      .shutdownNowReading)
    (hreplies : ∀ report, .shutdownNow report ∈ s'.replies → .shutdownNow report ∈ s.replies ∨
      s.Justifies poll report) :
    Reporting poll s' where
  reading running hrunning := by simp [hrunning] at hlock
  aborting pending report hpending := by simp [hpending] at hlock
  announcing a' report hannouncing := by simp [hannouncing] at hlock
  returned report hreport :=
    ((hreplies report hreport).elim (h.returned report) id).step hpoll hstep

/-- The holder of the submission lock keeps the reports. -/
theorem holderNext (hpoll : Task.Modest poll) (hs : (machine poll).Reach s)
    (h : Reporting poll s) {holder : Holder} (hlock : s.submissionLock = some holder)
    (hstep : s.step poll .holderNext = some (s.holderNext holder)) :
    Reporting poll (s.holderNext holder) := by
  cases holder with
  | submitChecking =>
    rw [Service.holderNext] at hstep ⊢
    split_ifs at hstep ⊢
    · exact h.pass hpoll hstep rfl fun report hreport => Or.inl (by
        simpa [Service.release] using hreport)
    · exact h.pass hpoll hstep rfl fun _ => Or.inl
  | submitCounting | submitReleasing | shutdownStoring | shutdownNowStoring =>
    exact h.pass hpoll hstep rfl fun _ => Or.inl
  | shutdownAnnouncing a =>
    rw [Service.holderNext] at hstep ⊢
    split at hstep
    · exact h.pass hpoll hstep rfl fun _ => Or.inl
    · exact h.pass hpoll hstep rfl fun report hreport => Or.inl (by
        simpa [Service.release] using hreport)
  | shutdownNowReading =>
    refine ⟨fun running hrunning => ?_, by simp [Service.holderNext, Service.hold],
      by simp [Service.holderNext, Service.hold],
      fun report hreport => (h.returned report hreport).step hpoll hstep⟩
    obtain rfl : s.activeTasks = running := by
      simpa [Service.holderNext, Service.hold] using hrunning
    exact ⟨s, hs, Relation.ReflTransGen.single ⟨.holderNext, hstep⟩, hlock, rfl, rfl⟩
  | shutdownNowLocking running =>
    refine ⟨by simp [Service.holderNext, Service.hold], fun pending report hpending => ?_,
      by simp [Service.holderNext, Service.hold],
      fun report hreport => (h.returned report hreport).step hpoll hstep⟩
    obtain ⟨rfl, rfl⟩ : s.abortHandles = pending ∧
        (⟨0, running, s.abortHandles.length⟩ : ShutdownReport) = report := by
      simpa [Service.holderNext, Service.hold] using hpending
    -- the handles are those of submissions that had returned when the count was read
    obtain ⟨s₀, hreach, hlater, hold, rfl, hsame⟩ := h.reading running hlock
    have htracked := tracked_of_reach hpoll hs
    have hlt : ∀ i ∈ s.abortHandles, i < s₀.tasks.length :=
      fun i hi => hsame ▸ lt_of_returnedAt (htracked.listed i hi)
    exact ⟨_, s.abortHandles, rfl, ⟨s₀, hreach, hlater.tail ⟨.holderNext, hstep⟩, hold, rfl,
      htracked.nodup, hlt, length_le_of_reading hpoll hreach hold htracked.nodup hlt⟩,
      fun i hi => ⟨lt_of_returnedAt (htracked.listed i hi), Or.inr hi⟩⟩
  | shutdownNowAborting pending report =>
    obtain ⟨running, handles, rfl, hexplains, haborted⟩ := h.aborting _ _ hlock
    cases pending with
    | nil =>
      refine ⟨by simp [Service.holderNext, Service.hold],
        by simp [Service.holderNext, Service.hold], fun a report hannouncing => ?_,
        fun report hreport => (h.returned report hreport).step hpoll hstep⟩
      obtain ⟨-, rfl⟩ : Announce.loadShutdown = a ∧
          (⟨0, running, handles.length⟩ : ShutdownReport) = report := by
        simpa [Service.holderNext, Service.hold] using hannouncing
      refine ⟨running, handles, rfl, hexplains.step hstep, fun i hi => ?_⟩
      exact abortedAt_step hpoll hstep ((haborted i hi).2.resolve_right (by simp))
    | cons j pending =>
      refine ⟨by simp [Service.holderNext, Service.hold], fun pending' report hpending => ?_,
        by simp [Service.holderNext, Service.hold], fun report hreport => ?_⟩
      · obtain ⟨rfl, rfl⟩ : pending = pending' ∧
            (⟨0, running, handles.length⟩ : ShutdownReport) = report := by
          simpa [Service.holderNext, Service.hold] using hpending
        -- one handle more is reached, and those of before stay reached
        refine ⟨running, handles, rfl, hexplains.step hstep, fun i hi => ?_⟩
        obtain ⟨hlt, hreached⟩ := haborted i hi
        refine ⟨hlt.trans_eq (abort_beside s j).2.1.symm, ?_⟩
        rcases hreached with hold | hmem
        · exact Or.inl (abortedAt_step hpoll hstep hold)
        · rcases List.mem_cons.mp hmem with rfl | hrest
          · exact Or.inl ((abort_spec s i).2.2.2 hlt)
          · exact Or.inr hrest
      · refine (h.returned report ?_).step hpoll hstep
        exact (abort_beside s j).2.2 ▸ hreport
  | shutdownNowAnnouncing a report =>
    have hjustified := h.announcing a report hlock
    rw [Service.holderNext] at hstep ⊢
    split at hstep
    · refine ⟨by simp [Service.hold], by simp [Service.hold], fun a' report' hannouncing => ?_,
        fun report hreport => (h.returned report hreport).step hpoll hstep⟩
      obtain ⟨-, rfl⟩ : _ ∧ report = report' := by simpa [Service.hold] using hannouncing
      exact hjustified.step hpoll hstep
    · refine h.pass hpoll hstep rfl fun report' hreport => ?_
      rcases List.mem_append.mp hreport with hold | hnew
      · exact Or.inl hold
      · obtain rfl : report' = report := by simpa using hnew
        exact Or.inr hjustified

/-- **Every step keeps the reports.** -/
theorem step (hpoll : Task.Modest poll) (hs : (machine poll).Reach s) (h : Reporting poll s)
    {a : Action R E} (hstep : s.step poll a = some s') : Reporting poll s' := by
  cases step_move hstep with
  | takes _ holder hfree hh =>
    refine h.pass hpoll hstep ?_ fun _ => Or.inl
    rcases hh with rfl | rfl | rfl <;> rfl
  | holds holder hlock => exact h.holderNext hpoll hs hlock hstep
  | task _ i t t' hi ht notes hnotes =>
    refine h.beside hpoll hstep rfl (List.length_set ..) fun report hreport => ?_
    rcases List.mem_append.mp hreport with hold | hnew
    · exact hold
    · exact absurd (hnotes _ hnew) (by simp)
  | lists i future closure aborted hi hfree =>
    exact h.beside hpoll hstep rfl (List.length_set ..) fun report hreport => by
      simpa using hreport
  | leaves | announces => exact h.beside hpoll hstep rfl (List.length_set ..) fun _ => id
  | waits => exact h.beside hpoll hstep rfl rfl fun _ => id

end Reporting

/-- Over every run, the reports are justified. -/
theorem reporting_of_reach (hpoll : Task.Modest poll) (hs : (machine poll).Reach s) :
    Reporting poll s := by
  refine hs.invariant (I := Reporting poll) ?_ fun s a s' hr h _ hstep => h.step hpoll hr hstep
  rintro s rfl
  exact ⟨by simp [Service.new], by simp [Service.new], by simp [Service.new],
    by simp [Service.new]⟩

/-- **What a Tokio service reports, and what it keeps.** -/
structure Accounts (poll : Task.Poll R E) (s : Service R E) : Prop where
  /-- Every report is justified. -/
  reports : ∀ report, .shutdownNow report ∈ s.replies → s.Justifies poll report
  /-- `abort_handles` has the handle of a task once. -/
  nodup : s.abortHandles.Nodup
  /-- It has handles of accepted tasks only, whose submissions have put them there. -/
  listed : ∀ i ∈ s.abortHandles, s.returnedAt i = true
  /-- It keeps them until a `shutdown_now` drains it. -/
  kept : s.hasDrained = false → ∀ i, s.returnedAt i = true → i ∈ s.abortHandles

/-- **The accounts of both services**, after every history of tasks. -/
theorem outcomes_of_reach :
    (∀ s : Service R E, (executorMachine R E).Reach s → Accounts Task.pollCallable s) ∧
    ∀ s : Service R E, (ioExecutorMachine R E).Reach s → Accounts Task.pollFuture s := by
  have hboth : ∀ {poll : Task.Poll R E}, Task.Modest poll → ∀ s, (machine poll).Reach s →
      Accounts poll s := by
    intro poll hpoll s hs
    have htracked := tracked_of_reach hpoll hs
    exact ⟨(reporting_of_reach hpoll hs).returned, htracked.nodup, htracked.listed,
      htracked.kept⟩
  exact ⟨hboth modest_pollCallable, hboth modest_pollFuture⟩

/-- One task is admitted, and put into `abort_handles`. -/
def admitOne (i : ℕ) : List (Action Unit Unit) :=
  [.submit, .holderNext, .holderNext, .holderNext, .spawn i true, .list i]

/-- A callable that was admitted ends, and its guard is dropped. -/
def endCallable (i : ℕ) : List (Action Unit Unit) :=
  [.poll i none, .closureStarts i, .closureReturns i (.value ()), .poll i none, .guardNext i,
    .guardNext i]

/-- A future that was admitted ends, and its guard is dropped. -/
def endFuture (i : ℕ) : List (Action Unit Unit) :=
  [.poll i (some (.value ())), .guardNext i, .guardNext i]

/-- Of two tasks one has ended; `shutdown_now` finds one running, and signals two handles. -/
theorem outcomes_of_reach_two :
    (∃ s : Service Unit Unit, .shutdownNow ⟨0, 1, 2⟩ ∈ s.replies ∧
      Accounts Task.pollCallable s) ∧
    ∃ s : Service Unit Unit, .shutdownNow ⟨0, 1, 2⟩ ∈ s.replies ∧ Accounts Task.pollFuture s := by
  constructor
  · obtain ⟨s, hs, hp⟩ := Machine.exists_reachVia_of_exec (M := executorMachine Unit Unit)
      (fun _ _ => True) (fun _ _ => true) (fun _ _ _ => trivial) rfl
      (admitOne 0 ++ endCallable 0 ++ admitOne 1 ++ [.shutdownNow] ++
        List.replicate 8 .holderNext)
      (fun s => decide (.shutdownNow ⟨0, 1, 2⟩ ∈ s.replies)) (by decide)
    exact ⟨s, of_decide_eq_true hp, outcomes_of_reach.1 s hs⟩
  · obtain ⟨s, hs, hp⟩ := Machine.exists_reachVia_of_exec (M := ioExecutorMachine Unit Unit)
      (fun _ _ => True) (fun _ _ => true) (fun _ _ _ => trivial) rfl
      (admitOne 0 ++ endFuture 0 ++ admitOne 1 ++ [.shutdownNow] ++
        List.replicate 8 .holderNext)
      (fun s => decide (.shutdownNow ⟨0, 1, 2⟩ ∈ s.replies)) (by decide)
    exact ⟨s, of_decide_eq_true hp, outcomes_of_reach.2 s hs⟩

/-- **A report may count tasks that have ended**, and `abort_handles` keeps their handles: after
the only task has ended, its handle is still there, and `shutdown_now` reports that it has
cancelled one task of none that were running. -/
theorem not_cancelled_le_running :
    ¬ (∀ s, (executorMachine Unit Unit).Reach s →
      ∀ report, .shutdownNow report ∈ s.replies → report.cancelled ≤ report.running) ∧
    ¬ (∀ s, (executorMachine Unit Unit).Reach s →
      ∀ i ∈ s.abortHandles, s.releasedAt i = false) ∧
    ¬ (∀ s, (ioExecutorMachine Unit Unit).Reach s →
      ∀ report, .shutdownNow report ∈ s.replies → report.cancelled ≤ report.running) ∧
    ¬ ∀ s, (ioExecutorMachine Unit Unit).Reach s →
      ∀ i ∈ s.abortHandles, s.releasedAt i = false := by
  refine ⟨fun hall => ?_, fun hall => ?_, fun hall => ?_, fun hall => ?_⟩
  · obtain ⟨s, hs, hp⟩ := Machine.exists_reachVia_of_exec (M := executorMachine Unit Unit)
      (fun _ _ => True) (fun _ _ => true) (fun _ _ _ => trivial) rfl
      (admitOne 0 ++ endCallable 0 ++ [.shutdownNow] ++ List.replicate 8 .holderNext)
      (fun s => decide (.shutdownNow ⟨0, 0, 1⟩ ∈ s.replies)) (by decide)
    exact absurd (hall s hs _ (of_decide_eq_true hp)) (by decide)
  · obtain ⟨s, hs, hp⟩ := Machine.exists_reachVia_of_exec (M := executorMachine Unit Unit)
      (fun _ _ => True) (fun _ _ => true) (fun _ _ _ => trivial) rfl
      (admitOne 0 ++ endCallable 0)
      (fun s => decide (0 ∈ s.abortHandles ∧ s.releasedAt 0 = true)) (by decide)
    obtain ⟨hkept, hreleased⟩ := of_decide_eq_true hp
    exact absurd ((hall s hs 0 hkept).symm.trans hreleased) Bool.false_ne_true
  · obtain ⟨s, hs, hp⟩ := Machine.exists_reachVia_of_exec (M := ioExecutorMachine Unit Unit)
      (fun _ _ => True) (fun _ _ => true) (fun _ _ _ => trivial) rfl
      (admitOne 0 ++ endFuture 0 ++ [.shutdownNow] ++ List.replicate 8 .holderNext)
      (fun s => decide (.shutdownNow ⟨0, 0, 1⟩ ∈ s.replies)) (by decide)
    exact absurd (hall s hs _ (of_decide_eq_true hp)) (by decide)
  · obtain ⟨s, hs, hp⟩ := Machine.exists_reachVia_of_exec (M := ioExecutorMachine Unit Unit)
      (fun _ _ => True) (fun _ _ => true) (fun _ _ _ => trivial) rfl
      (admitOne 0 ++ endFuture 0)
      (fun s => decide (0 ∈ s.abortHandles ∧ s.releasedAt 0 = true)) (by decide)
    obtain ⟨hkept, hreleased⟩ := of_decide_eq_true hp
    exact absurd ((hall s hs 0 hkept).symm.trans hreleased) Bool.false_ne_true

end Tokio

end QubitConcurrent
