import QubitConcurrent.FixedPool.Accounting

/-!
# Behind the closed gate

The two gates of the repository, that of a fixed pool and that of
`InflightSubmitCounter`, follow one protocol (`QubitConcurrent.Admission`). So for both
the counter is exact, and once it was read as zero at the closed gate nobody is let in again,
though it may rise once more and fall again.

A `shutdown_now` that is past its wait loop has read the counter as zero at the closed gate.
No submission is between its second look at the gate and its departure then, or ever after:
what the queues hold while they are drained was outstanding before.
-/

namespace QubitConcurrent

/-! ### The counter of in-flight submissions -/

namespace Cas

/-- Whether a submission is about to lower the counter. -/
def Submission.lowers : Submission → Bool
  | rollingBack | entered => true
  | _ => false

/-- **The counter is exact, and the closed gate is quiet.** -/
structure State.Gated (s : State) : Prop where
  /-- The counter counts the submissions between their increment and their decrement. -/
  count : s.count = s.submissions.countP Submission.isCounted
  /-- Nobody lowers it below zero. -/
  noUnderflow : ∀ u ∈ s.submissions, u.lowers = true → 0 < s.count
  /-- Once it was read as zero at the closed gate nobody enters. -/
  quiet : s.isOpen = false → s.count = 0 →
    ∀ s', machine.Later s s' → ∀ u ∈ s'.submissions, u ≠ .entered

theorem gated_of_reach {s : State} (h : machine.Reach s) : s.Gated where
  count := count_eq h
  noUnderflow u hu hlowers := by
    rw [count_eq h, List.countP_pos_iff]
    refine ⟨u, hu, ?_⟩
    cases u with
    | rollingBack | entered => rfl
    | _ => cases hlowers
  quiet hclosed hzero _ hlater := not_entered_of_later h hclosed hzero hlater

end Cas

namespace FixedPool

/-! ### The gate of a fixed pool -/

/-- Whether a thread is between its increment of `inflight_submissions` and its decrement. -/
def Thread.isInflight (t : Thread) : Bool := t.role.isInside

/-- Whether a thread is inside the admitted section. -/
def Thread.isAdmitted (t : Thread) : Bool := t.role == .admitted

/-- Whether a thread is about to lower `inflight_submissions`. -/
def Thread.lowersInflight : Thread → Bool
  | submit _ .retreating | submit _ (.dropping _) => true
  | _ => false

/-- Whether a `shutdown_now` is past its wait loop. -/
def ShutdownNowPhase.isPastLoop : ShutdownNowPhase → Bool
  | closing | stopping | counting | locking _ | testing _ | parking _ | parked _ => false
  | _ => true

variable {p p' : Pool} {s s' : Inner} {k : ℕ} {c : Choice}

/-- A `shutdown_now` gets past its wait loop by reading `inflight_submissions` as zero. -/
theorem ShutdownNowPhase.Turn.pastLoop_cases {q q' : ShutdownNowPhase} (h : Turn s s' k q q')
    (hpast : q'.isPastLoop = true) :
    q.isPastLoop = true ∨ ((∃ running, q = testing running) ∧ s.inflightSubmissions = 0) := by
  cases h with
  | pass running hzero => exact Or.inr ⟨⟨running, rfl⟩, hzero⟩
  | unlock | drain | uncount | countCancelled | cancel | done | announce => exact Or.inl rfl
  | close | stop | count | lock | wait | park | wake => cases hpast

/-- A quiet gate stays quiet. -/
theorem quiet_step {a : Action} (h : p.admission.Quiet) (hstep : step p a = some p') :
    p'.admission.Quiet := by
  rcases follows_step hstep with heq | ⟨act, hact⟩
  · exact heq ▸ h
  · exact h.step hact

/-- Where the counter is zero at the closed gate, the gate is quiet. -/
theorem quiet_of_zero {ok : Pool → Action → Prop} (h : machine.ReachVia ok p)
    (hclosed : p.inner.accepting = false) (hzero : p.inner.inflightSubmissions = 0) :
    p.admission.Quiet :=
  (Admission.sound_of_reach (admission_of_reach h)).quiet hclosed hzero

/-- **Past the wait loop of a `shutdown_now` the gate is quiet.** -/
theorem quiet_of_reach {ok : Pool → Action → Prop} (h : machine.ReachVia ok p) :
    ∀ q, Thread.shutdownNow q ∈ p.threads → q.isPastLoop = true → p.admission.Quiet := by
  refine h.invariant (I := fun p => ∀ q, Thread.shutdownNow q ∈ p.threads →
    q.isPastLoop = true → p.admission.Quiet) ?_ ?_
  · rintro _ ⟨poolSize, capacity, stack, -, rfl⟩ q hq
    exact Thread.noConfusion (List.mem_replicate.mp hq).2
  · intro p a p' hreach hquiet _ hstep q hq hpast
    have hstep' : FixedPool.step p a = some p' := hstep
    rcases step_cases hstep' with ⟨call, -, rfl⟩ | ⟨k, c, t, s', t', -, hk, hadvance, rfl⟩ |
      ⟨k, -, -, rfl⟩
    · rcases List.mem_append.mp hq with hq | hq
      · exact quiet_step (hquiet q hq hpast) hstep'
      · cases call <;> cases List.mem_singleton.mp hq
        cases hpast
    · rcases List.mem_or_eq_of_mem_set hq with hq | rfl
      · exact quiet_step (hquiet q hq hpast) hstep'
      · refine quiet_step ?_ hstep'
        have ht := List.mem_of_getElem? hk
        cases Thread.goes hadvance with
        | @shutdownNow q₀ _ hturn =>
          rcases hturn.pastLoop_cases hpast with hold | ⟨⟨running, rfl⟩, hzero⟩
          · exact hquiet q₀ ht hold
          · exact quiet_of_zero hreach ((sound_of_reach hreach).known _ ht) hzero
    · exact quiet_step (hquiet q hq hpast) hstep'

/-- Where the gate is quiet nobody is admitted, then or later. -/
theorem not_admitted_of_later (hp : machine.Reach p) (hquiet : p.admission.Quiet)
    (hlater : machine.Later p p') : ∀ t ∈ p'.threads, t.isAdmitted = false := by
  have hquiet' : p'.admission.Quiet :=
    hlater.invariant hp (fun _ _ _ _ hquiet hstep => quiet_step hquiet hstep) hquiet
  intro t ht
  exact beq_eq_false_iff_ne.mpr (hquiet'.2 t.role (List.mem_map_of_mem ht))

/-- At a closed gate no more jobs are outstanding later. -/
theorem outstanding_of_later (hp : machine.Reach p) (hclosed : p.inner.accepting = false)
    (hlater : machine.Later p p') (job : Job) : p'.outstanding job ≤ p.outstanding job := by
  have hkept : p'.inner.accepting = false ∧ p'.outstanding job ≤ p.outstanding job := by
    refine hlater.invariant (I := fun t => t.inner.accepting = false ∧
      t.outstanding job ≤ p.outstanding job) hp ?_ ⟨hclosed, le_rfl⟩
    intro t a t' ht hI hstep
    refine ⟨?_, ((sound_of_reach ht).outstanding_step hstep hI.1 job).trans hI.2⟩
    rcases step_cases hstep with ⟨call, -, rfl⟩ | ⟨k, c, u, s', u', -, -, hadvance, rfl⟩ |
      ⟨k, -, -, rfl⟩
    · exact hI.1
    · exact Thread.closed hadvance hI.1
    · exact hI.1
  exact hkept.2

/-- **The counter is exact, and the closed gate is quiet.** -/
structure Pool.Gated (p : Pool) : Prop where
  /-- `inflight_submissions` counts those between their increment and their decrement. -/
  count : p.inner.inflightSubmissions = p.threads.countP Thread.isInflight
  /-- Nobody lowers it below zero. -/
  noUnderflow : ∀ t ∈ p.threads, t.lowersInflight = true → 0 < p.inner.inflightSubmissions
  /-- Once it was read as zero at the closed gate nobody is admitted. -/
  quiet : p.inner.accepting = false → p.inner.inflightSubmissions = 0 →
    ∀ p', machine.Later p p' → ∀ t ∈ p'.threads, t.isAdmitted = false
  /-- Once a `shutdown_now` is past its wait loop nobody is admitted, and no job is in the
  queues, or in the hands of somebody who may push it, that was not before. -/
  drained : ∀ q, Thread.shutdownNow q ∈ p.threads → q.isPastLoop = true →
    ∀ p', machine.Later p p' → (∀ t ∈ p'.threads, t.isAdmitted = false) ∧
      ∀ job, p'.outstanding job ≤ p.outstanding job

theorem gated_of_reach (h : machine.Reach p) : p.Gated := by
  have hsound : p.inner.inflightSubmissions = p.threads.countP Thread.isInflight := by
    have hcount : p.inner.inflightSubmissions = (p.threads.map Thread.role).countP Role.isInside :=
      Admission.sound_of_reach (admission_of_reach h)
    rw [hcount, List.countP_map]
    rfl
  constructor
  case count => exact hsound
  case noUnderflow =>
    intro t ht hlowers
    rw [hsound, List.countP_pos_iff]
    refine ⟨t, ht, ?_⟩
    cases t with
    | submit job q =>
      cases q with
      | retreating | dropping => rfl
      | _ => cases hlowers
    | _ => cases hlowers
  case quiet =>
    intro hclosed hzero p' hlater
    exact not_admitted_of_later h (quiet_of_zero h hclosed hzero) hlater
  case drained =>
    intro q hq hpast p' hlater
    have hquiet := quiet_of_reach h q hq hpast
    exact ⟨not_admitted_of_later h hquiet hlater, outstanding_of_later h hquiet.1 hlater⟩

/-- **Both gates of the repository count exactly, and are quiet once they were found empty
after they were closed.** -/
theorem gates_of_reach {s : Cas.State} (hs : Cas.machine.Reach s) (hp : machine.Reach p) :
    s.Gated ∧ p.Gated := ⟨Cas.gated_of_reach hs, gated_of_reach hp⟩

/-- A submission raises the counter once more, after the gate was closed; in the pool a
`shutdown_now` is past its wait loop by then. -/
theorem gates_of_reach_late : ∃ (s : Cas.State) (p : Pool),
    (s.isOpen = false ∧ s.count = 1) ∧
      (p.inner.inflightSubmissions = 1 ∧
        Thread.shutdownNow (.draining 0 [] 0 (.localOf 0)) ∈ p.threads) ∧ s.Gated ∧ p.Gated := by
  obtain ⟨s, hs, hlate⟩ := Machine.exists_reachVia_of_exec (M := Cas.machine) (fun _ _ => True)
    (fun _ _ => true) (fun _ _ _ => trivial) (s := ⟨true, 0, [], []⟩) rfl
    [.tryEnter, .advance 0, .close, .advance 0]
    (fun s => decide (s.isOpen = false ∧ s.count = 1)) (by decide)
  obtain ⟨p, hp, hdraining⟩ := Machine.exists_reachVia_of_exec (M := machine) (fun _ _ => True)
    (fun _ _ => true) (fun _ _ _ => trivial)
    (s := ⟨.initial 1 none, List.replicate 1 (.worker .activating)⟩) ⟨1, none, none, rfl, rfl⟩
    (List.flatten [[.call .submit, .go 1 {}, .call .shutdownNow], steps 7 2, steps 1 1])
    (fun p => decide (p.inner.inflightSubmissions = 1 ∧
      Thread.shutdownNow (.draining 0 [] 0 (.localOf 0)) ∈ p.threads)) (by decide)
  exact ⟨s, p, of_decide_eq_true hlate, of_decide_eq_true hdraining, gates_of_reach hs hp⟩

end FixedPool

end QubitConcurrent
