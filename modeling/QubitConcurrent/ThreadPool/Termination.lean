import QubitConcurrent.ThreadPool.Callables

/-!
# What a reported termination is worth

A pool tells its users that it has terminated in two ways: `is_terminated` answers `true`,
or a `wait_for_termination` returns. Either happens in a critical section that has looked
at the lifecycle and at the counters – and `shutdown_now` has already emptied the queues
and set their counter to zero when it releases the monitor, while the cancel callbacks of
what it drained are still to be invoked.

So a report says that every accepted job is over except those in the hands of a
`shutdown_now` in another thread, and there are schedules in which there are some. If a
cancel callback unwinds, the `shutdown_now` is left with the jobs that come after it still
in its hands, and they are dropped: no callback of theirs is ever invoked.
-/

namespace QubitConcurrent

namespace ThreadPool

variable {Job R E W : Type}

/-- Whether a step that has led to the pool `s` has told somebody that it is
terminated. -/
def Action.reports (s : Pool Job) : Action Job → Bool
  | .isTerminated => s.calls.getLast?.any (· matches .returned (.isTerminated true))
  | .waitForTermination => s.calls.getLast?.any (· matches .returned .waitForTermination)
  | .resumeCaller k => (s.calls[k]?).any (· matches .returned .waitForTermination)
  | _ => false

section Reports

variable [DecidableEq Job]

/-- A report of termination is made by a terminated pool, and nothing happens to the jobs
meanwhile. -/
theorem isTerminated_of_reports {s s' : Pool Job} {a : Action Job} (hstep : step s a = some s')
    (hreports : a.reports s' = true) : s.state.isTerminated = true ∧ s'.ledger = s.ledger := by
  cases a with
  | isTerminated =>
    obtain rfl := Option.some.inj hstep
    refine ⟨?_, rfl⟩
    cases hterm : s.state.isTerminated with
    | true => rfl
    | false => simp [Action.reports, Pool.addCall, hterm] at hreports
  | waitForTermination =>
    simp only [step, Action.worker?, callerStep] at hstep
    rw [critical, waitForTermination_run] at hstep
    obtain rfl := Option.some.inj hstep
    refine ⟨?_, rfl⟩
    cases hterm : s.state.isTerminated with
    | true => rfl
    | false => simp [Action.reports, Pool.addCall, hterm] at hreports
  | resumeCaller k =>
    simp only [step, Action.worker?, callerStep] at hstep
    split at hstep
    · next hk =>
      rw [critical, waitForTermination_run] at hstep
      obtain rfl := Option.some.inj hstep
      refine ⟨?_, rfl⟩
      have hlt : k < s.calls.length := (List.getElem?_eq_some_iff.mp hk).1
      cases hterm : s.state.isTerminated with
      | true => rfl
      | false => simp [Action.reports, Pool.setCall, hterm, hlt] at hreports
    · exact absurd hstep (by simp)
  | _ => exact absurd hreports (by simp [Action.reports])

/-- A drained job was accepted. -/
theorem mem_accepted_of_drained {ok : Pool Job → Action Job → Prop} {s : Pool Job}
    (hs : (machine Job).ReachVia ok s) {j : Job} (hj : j ∈ s.drainedJobs) :
    j ∈ s.ledger.accepted := by
  have hplaces := (placed_of_reach hs).places j
  have hpos := List.count_pos_iff.mpr hj
  exact List.count_pos_iff.mp (by omega)

/-- **In a terminated pool a callback of an accepted job has returned exactly if the job is
not in the hands of a `shutdown_now`.** -/
theorem returned_iff_of_isTerminated {ok : Pool Job → Action Job → Prop} {s : Pool Job}
    (hs : (machine Job).ReachVia ok s) (hterm : s.state.isTerminated = true) {j : Job}
    (hj : j ∈ s.ledger.accepted) :
    (j ∈ s.ledger.runReturned ∨ j ∈ s.ledger.cancelReturned) ↔ j ∉ s.drainedJobs := by
  obtain ⟨hover, -, hreturned⟩ := count_of_isTerminated hs hterm j
  have hone := (placed_of_reach hs).count_accepted hj
  rw [← List.count_pos_iff, ← List.count_pos_iff, ← List.count_eq_zero]
  omega

variable {callable : Job → Bool} {s s' : CallablePool Job R E W}

/-- **What a reported termination is worth.** In every run, when a pool reports that it is
terminated, a callback of every accepted job has returned, and the handles of the callable
tasks among them are done, if and only if no `shutdown_now`, in progress or left by the panic of
a cancel callback, has a drained job whose cancel callback has not returned; and whatever is in
progress, this holds of the jobs that are not drained. -/
theorem reported_termination_sound (hs : (callableMachine Job R E W callable).Reach s)
    {a : Action Job} (hstep : (callableMachine Job R E W callable).step s (.pool a) = some s')
    (hreports : a.reports s'.pool = true) :
    ((∀ j ∈ s'.pool.ledger.accepted,
        (j ∈ s'.pool.ledger.runReturned ∨ j ∈ s'.pool.ledger.cancelReturned) ∧
          (callable j = true → (s'.tasks j).isDone = true)) ↔
      s.pool.drainedJobs = []) ∧
    ∀ j ∈ s'.pool.ledger.accepted, j ∉ s.pool.drainedJobs →
      (j ∈ s'.pool.ledger.runReturned ∨ j ∈ s'.pool.ledger.cancelReturned) ∧
        (callable j = true → (s'.tasks j).isDone = true) := by
  obtain ⟨p, hp, hrest⟩ := Option.bind_eq_some_iff.mp hstep
  split_ifs at hrest
  obtain rfl := Option.some.inj hrest
  obtain ⟨hterm, hledger⟩ := isTerminated_of_reports hp hreports
  have hpool := pool_reach hs
  have hover : ∀ j ∈ s.pool.ledger.accepted, j ∉ s.pool.drainedJobs →
      (j ∈ s.pool.ledger.runReturned ∨ j ∈ s.pool.ledger.cancelReturned) ∧
        (callable j = true → (s.tasks j).isDone = true) := by
    intro j hj hnot
    have hreturned := (returned_iff_of_isTerminated hpool hterm hj).mpr hnot
    exact ⟨hreturned, fun hcallable => Linked.isDone_of_returned hs hcallable hreturned⟩
  simp only [hledger]
  refine ⟨⟨fun hall => ?_, fun hnil j hj => hover j hj (by simp [hnil])⟩, hover⟩
  rw [List.eq_nil_iff_forall_not_mem]
  intro j hj
  have haccepted := mem_accepted_of_drained hpool hj
  exact (returned_iff_of_isTerminated hpool hterm haccepted).mp (hall j haccepted).1 hj

end Reports

/-- One task runs, another one is drained and cancelled; then the pool reports. -/
theorem reported_termination_sound_after_cancel :
    ∃ s s' : CallablePool ℕ Unit Unit Unit,
      (callableMachine ℕ Unit Unit Unit fun _ => true).step s (.pool .isTerminated) = some s' ∧
      s'.pool.ledger.accepted = [0, 1] ∧
      ∀ j ∈ s'.pool.ledger.accepted,
        (j ∈ s'.pool.ledger.runReturned ∨ j ∈ s'.pool.ledger.cancelReturned) ∧
          (s'.tasks j).isDone = true := by
  obtain ⟨s, hs, hp⟩ := Machine.exists_reachVia_of_exec
    (M := callableMachine ℕ Unit Unit Unit fun _ => true) (fun _ _ => True) (fun _ _ => true)
    (fun _ _ _ => trivial) (s := ⟨Pool.ofSize 1, fun _ => .new⟩)
    ⟨machine_init_ofSize ℕ 0, rfl⟩
    [.pool (.submit 0 .ok), .pool (.submit 1 .ok), .pool .shutdownNow,
      .pool (.invokeRun 0), .runTask 0, .callReturns 0 (.value ()), .cell 0 (.notify 0),
      .pool (.runReturns 0), .pool (.finishRunningJob 0), .pool (.waitForJob 0),
      .pool (.invokeCancel 2), .cancelTask 1, .cell 1 (.notify 0), .pool (.cancelReturns 2)]
    (fun s => s.pool.drainedJobs == [] &&
      ((callableMachine ℕ Unit Unit Unit fun _ => true).step s (.pool .isTerminated)).any
        fun s' => Action.isTerminated.reports s'.pool && s'.pool.ledger.accepted == [0, 1])
    (by decide)
  simp only [Bool.and_eq_true, beq_iff_eq, Option.any_eq_true] at hp
  obtain ⟨hnil, s', hstep, hreports, haccepted⟩ := hp
  have hall := (reported_termination_sound hs hstep hreports).1.mpr hnil
  exact ⟨s, s', hstep, haccepted, fun j hj => ⟨(hall j hj).1, (hall j hj).2 rfl⟩⟩

/-- A pool of one worker reports termination while a `shutdown_now` in another thread has
not yet invoked the cancel callback of the second task: neither callback of that task has
returned, and its handle is not done. -/
theorem reported_before_cancelled :
    ∃ s s' : CallablePool ℕ Unit Unit Unit,
      (callableMachine ℕ Unit Unit Unit fun _ => true).Reach s ∧
      (callableMachine ℕ Unit Unit Unit fun _ => true).step s (.pool .isTerminated) = some s' ∧
      Action.isTerminated.reports s'.pool = true ∧ 1 ∈ s'.pool.ledger.accepted ∧
      1 ∉ s'.pool.ledger.runReturned ∧ 1 ∉ s'.pool.ledger.cancelReturned ∧
      (s'.tasks 1).isDone = false := by
  obtain ⟨s, hs, hp⟩ := Machine.exists_reachVia_of_exec
    (M := callableMachine ℕ Unit Unit Unit fun _ => true) (fun _ _ => True) (fun _ _ => true)
    (fun _ _ _ => trivial) (s := ⟨Pool.ofSize 1, fun _ => .new⟩)
    ⟨machine_init_ofSize ℕ 0, rfl⟩
    [.pool (.submit 0 .ok), .pool (.submit 1 .ok), .pool .shutdownNow,
      .pool (.invokeRun 0), .runTask 0, .callReturns 0 (.value ()), .cell 0 (.notify 0),
      .pool (.runReturns 0), .pool (.finishRunningJob 0), .pool (.waitForJob 0)]
    (fun s => ((callableMachine ℕ Unit Unit Unit fun _ => true).step s
      (.pool .isTerminated)).any fun (s' : CallablePool ℕ Unit Unit Unit) =>
        Action.isTerminated.reports s'.pool &&
        decide (1 ∈ s'.pool.ledger.accepted) && decide (1 ∉ s'.pool.ledger.runReturned) &&
        decide (1 ∉ s'.pool.ledger.cancelReturned) && !(s'.tasks 1).isDone)
    (by decide)
  simp only [Bool.and_eq_true, decide_eq_true_eq, Bool.not_eq_true', Option.any_eq_true] at hp
  obtain ⟨s', hstep, ⟨⟨⟨hreports, haccepted⟩, hrun⟩, hcancel⟩, hdone⟩ := hp
  exact ⟨s, s', hs, hstep, hreports, haccepted, hrun, hcancel, hdone⟩

/-- A cancel callback unwinds out of `shutdown_now`: the pool reports termination, and the
accepted job that was to be cancelled next has been neither run nor cancelled. -/
example : (((machine ℕ).exec (fun _ _ => true) (Pool.ofSize 1)
    [.submit 0 .ok, .submit 1 .ok, .submit 2 .ok, .invokeRun 0, .shutdownNow, .invokeCancel 3,
      .cancelUnwinds 3 "cancel callback", .runReturns 0, .finishRunningJob 0, .waitForJob 0,
      .isTerminated]).any fun s =>
        Action.isTerminated.reports s && s.ledger.accepted == [0, 1, 2] &&
          s.ledger.runInvoked == [0] && s.ledger.cancelInvoked == [1] &&
          s.drainedJobs == [1, 2]) = true := by
  decide

end ThreadPool

end QubitConcurrent
