import QubitConcurrent.FixedPool.Loop
import QubitConcurrent.Lib.Lists

/-!
# Those who wait on the condition variable

Workers, calls of `shutdown_now` and calls of `wait_for_termination` wait on one condition
variable. A thread enters the list of those who wait when it parks, and a notification takes
it out: so whoever is in the list is parked, and is in it once
(`QubitConcurrent.FixedPool.waits_of_reach`).
-/

namespace QubitConcurrent

namespace FixedPool

/-- Whether a thread is in `state.wait()`. -/
def Thread.isParked : Thread → Bool
  | worker .parked | shutdownNow (.parked _) | termination _ .parked => true
  | _ => false

variable {p p' : Pool} {s s' : Inner} {k : ℕ} {c : Choice}

/-! ### What a step does to those who wait -/

/-- A thread does not park, and was not waiting; or it parks. -/
inductive Parking (s s' : Inner) (k : ℕ) (t t' : Thread) : Prop
  /-- It does not park. Others may be notified. -/
  | free (ht : t.isParked = true → k ∉ s.waiters) (hs : s'.waiters.Sublist s.waiters)
  /-- It parks. -/
  | parks (ht : t.isParked = false) (ht' : t'.isParked = true) (hs : s' = s.park k)

/-- A worker parks when it has decided to. -/
theorem WorkerPhase.parks {q q' : WorkerPhase} (h : q.advance s k c = some (s', q')) :
    (q = .parking ∧ q' = .parked ∧ s' = s.park k) ∨
      ((q = .parked → k ∉ s.waiters) ∧ s'.waiters.Sublist s.waiters) := by
  have hsame : s' = s → s'.waiters.Sublist s.waiters := by
    rintro rfl
    exact List.Sublist.refl _
  cases turn h with
  | park hs => exact Or.inl ⟨rfl, rfl, hs⟩
  | work hp hp' hs =>
    refine Or.inr ⟨?_, hs.waiters⟩
    rintro rfl
    cases hp
  | wake hk hs =>
    subst hs
    exact Or.inr ⟨fun _ => hk, List.Sublist.refl _⟩
  | exit hs =>
    subst hs
    exact Or.inr ⟨nofun, List.nil_sublist _⟩
  | linger hp hs =>
    refine Or.inr ⟨?_, hsame hs⟩
    rintro rfl
    rcases hp with hp | hp <;> cases hp
  | turnBack again hp hs | find _ again hp hs | spare again hp _ hs =>
    refine Or.inr ⟨?_, hsame hs⟩
    rintro rfl
    cases hp
  | stop _ hs | ending _ hs | empty _ hs | quit hs | blind _ _ _ hs | look hs | decide _ _ hs =>
    exact Or.inr ⟨nofun, hsame hs⟩
  | mark _ hs | unmark _ hs | consume _ _ hs | unlock hs | deactivate hs | leave hs =>
    subst hs
    exact Or.inr ⟨nofun, List.Sublist.refl _⟩

/-- A submission does not park. -/
theorem SubmitPhase.Turn.waiters {q q' : SubmitPhase} {job : Job} (h : Turn s s' job c q q') :
    s'.waiters.Sublist s.waiters := by
  cases h with
  | push place hs => exact (Calm.push hs).waiters
  | notify hs => exact (Calm.notifyOne hs).waiters
  | announce hs | dropAnnounce _ hs =>
    subst hs
    exact List.nil_sublist _
  | _ =>
    subst_vars
    exact List.Sublist.refl _

/-- Whoever shuts down in an orderly way does not park. -/
theorem ShutdownPhase.calm {q q' : ShutdownPhase} (h : q.advance s = some (s', q')) :
    Calm s s' := by
  cases q with
  | switching =>
    rw [advance] at h
    split_ifs at h <;> obtain ⟨rfl, -⟩ := Prod.mk.inj (Option.some.inj h) <;>
      exact ⟨rfl, rfl, rfl, List.Sublist.refl _⟩
  | announcing =>
    obtain ⟨rfl, -⟩ := Prod.mk.inj (Option.some.inj h)
    exact Calm.notifyAll s
  | closing =>
    obtain ⟨rfl, -⟩ := Prod.mk.inj (Option.some.inj h)
    exact ⟨rfl, rfl, rfl, List.Sublist.refl _⟩
  | returned => cases h

/-- A `shutdown_now` parks when it has found a submission in flight. -/
theorem ShutdownNowPhase.Turn.parks {q q' : ShutdownNowPhase} (h : Turn s s' k q q') :
    (∃ running, q = .parking running ∧ q' = .parked running ∧ s' = s.park k) ∨
      (((∃ running, q = .parked running) → k ∉ s.waiters) ∧ Calm s s') := by
  cases h with
  | park running hs => exact Or.inl ⟨running, rfl, rfl, hs⟩
  | wake running hk hs =>
    subst hs
    exact Or.inr ⟨fun _ => hk, ⟨rfl, rfl, rfl, List.Sublist.refl _⟩⟩
  | drain _ _ _ _ hs => exact Or.inr ⟨nofun, Calm.claim hs⟩
  | announce _ _ hs =>
    subst hs
    exact Or.inr ⟨nofun, Calm.notifyAll s⟩
  | _ =>
    subst_vars
    exact Or.inr ⟨nofun, ⟨rfl, rfl, rfl, List.Sublist.refl _⟩⟩

/-- Whoever waits for the end parks while it has not come. -/
theorem TerminationPhase.parks {q q' : TerminationPhase} {waits : Bool}
    (h : q.advance s k waits = some (s', q')) :
    (q = .answering false ∧ q' = .parked ∧ s' = s.park k) ∨
      ((q = .parked → k ∉ s.waiters) ∧ Calm s s') := by
  cases q with
  | locking =>
    obtain ⟨ht, -⟩ := Inner.then_cases h
    exact Or.inr ⟨by simp, Calm.lock ht⟩
  | parked =>
    obtain ⟨ht, -⟩ := Inner.then_cases h
    exact Or.inr ⟨fun _ => (Inner.unpark_cases ht).1, Calm.unpark ht⟩
  | answering terminated =>
    rw [advance] at h
    split_ifs at h with hwaits <;> obtain ⟨rfl, rfl⟩ := Prod.mk.inj (Option.some.inj h)
    · obtain rfl : terminated = false := by simp_all
      exact Or.inl ⟨rfl, rfl, rfl⟩
    · exact Or.inr ⟨by simp, ⟨rfl, rfl, rfl, List.Sublist.refl _⟩⟩
  | returned => cases h
  | readingQueued | readingRunning | readingInflight =>
    obtain ⟨rfl, -⟩ := Prod.mk.inj (Option.some.inj h)
    exact Or.inr ⟨by simp, Calm.refl _⟩

/-- **A step of a thread notifies others, or parks it.** -/
theorem Thread.parking {t t' : Thread} (h : t.advance s k c = some (s', t')) :
    Parking s s' k t t' := by
  cases Thread.goes h with
  | @worker q q' hq =>
    rcases WorkerPhase.parks hq with ⟨rfl, rfl, hs⟩ | ⟨hk, hs⟩
    · exact .parks rfl rfl hs
    · refine .free (fun ht => hk ?_) hs
      cases q with
      | parked => rfl
      | _ => cases ht
  | submit hq => exact .free nofun hq.waiters
  | shutdown hq => exact .free nofun (ShutdownPhase.calm hq).waiters
  | @shutdownNow q q' hq =>
    rcases hq.parks with ⟨running, rfl, rfl, hs⟩ | ⟨hk, hs⟩
    · exact .parks rfl rfl hs
    · refine .free (fun ht => hk ?_) hs.waiters
      cases q with
      | parked running => exact ⟨running, rfl⟩
      | _ => cases ht
  | @termination waits q q' hq =>
    rcases TerminationPhase.parks hq with ⟨rfl, rfl, hs⟩ | ⟨hk, hs⟩
    · exact .parks rfl rfl hs
    · refine .free (fun ht => hk ?_) hs.waiters
      cases q with
      | parked => rfl
      | _ => cases ht

/-! ### Whoever waits is parked -/

/-- **Whoever is in the list is parked, and is in it once.** -/
structure Pool.Waits (p : Pool) : Prop where
  /-- Nobody waits twice. -/
  nodup : p.inner.waiters.Nodup
  /-- Whoever waits is parked. -/
  parked : ∀ k ∈ p.inner.waiters, (p.threads[k]?).any Thread.isParked = true

/-- A thread that is not parked does not wait. -/
theorem Pool.Waits.not_mem {t : Thread} (h : p.Waits) (hk : p.threads[k]? = some t)
    (ht : t.isParked = false) : k ∉ p.inner.waiters := by
  intro hmem
  have hparked := h.parked k hmem
  rw [hk, Option.any_some, ht] at hparked
  exact Bool.false_ne_true hparked

/-- A step of a thread keeps the list right. -/
theorem Pool.Waits.go {t t' : Thread} (h : p.Waits) (hk : p.threads[k]? = some t)
    (hadvance : t.advance p.inner k c = some (s', t')) :
    Pool.Waits ⟨s', p.threads.set k t'⟩ := by
  have helsewhere : ∀ j, k ≠ j → j ∈ p.inner.waiters →
      ((p.threads.set k t')[j]?).any Thread.isParked = true := by
    intro j hne hj
    rw [List.getElem?_set_ne hne]
    exact h.parked j hj
  cases Thread.parking hadvance with
  | free ht hs =>
    refine ⟨h.nodup.sublist hs, fun j hj => helsewhere j ?_ (hs.subset hj)⟩
    rintro rfl
    cases hparked : t.isParked with
    | true => exact ht hparked (hs.subset hj)
    | false => exact h.not_mem hk hparked (hs.subset hj)
  | parks ht ht' hs =>
    have hnew := h.not_mem hk ht
    rw [hs]
    refine ⟨List.nodup_append.mpr ⟨h.nodup, List.nodup_singleton k, ?_⟩, fun j hj => ?_⟩
    · rintro j hj _ hk' rfl
      exact hnew (List.mem_singleton.mp hk' ▸ hj)
    · rcases List.mem_append.mp hj with hj | hj
      · exact helsewhere j (fun heq => hnew (heq ▸ hj)) hj
      · rw [List.mem_singleton.mp hj, getElem?_set_of_some hk]
        exact ht'

/-- A step keeps the list right. -/
theorem Pool.Waits.step {a : Action} (h : p.Waits) (hstep : step p a = some p') : p'.Waits := by
  rcases step_cases hstep with ⟨call, -, rfl⟩ | ⟨k, c, t, s', t', -, hk, hadvance, rfl⟩ |
    ⟨k, -, -, rfl⟩
  · refine ⟨h.nodup, fun j hj => ?_⟩
    obtain ⟨t, ht, hparked⟩ := (Option.any_eq_true ..).mp (h.parked j hj)
    rw [getElem?_concat_of_some ht, Option.any_some]
    exact hparked
  · exact h.go hk hadvance
  · exact ⟨h.nodup.erase k, fun j hj => h.parked j (List.mem_of_mem_erase hj)⟩

/-- In every run whoever waits is parked. -/
theorem waits_of_reach {ok : Pool → Action → Prop} (h : machine.ReachVia ok p) : p.Waits := by
  refine h.invariant ?_ fun _ _ _ _ hwaits _ hstep => hwaits.step hstep
  rintro _ ⟨poolSize, queueCapacity, -, -, rfl⟩
  exact ⟨List.nodup_nil, fun k hk => absurd hk List.not_mem_nil⟩

end FixedPool

end QubitConcurrent
