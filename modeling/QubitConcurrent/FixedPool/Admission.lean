import QubitConcurrent.FixedPool.Moves
import QubitConcurrent.ThreadPool.Cas

/-!
# Who is let in to a fixed pool

`begin_submit` and the guard it returns are the protocol of `QubitConcurrent.Admission`: a
submission looks at `accepting`, raises `inflight_submissions`, looks again, and lowers it
when it goes. It is admitted from the second look on, and all it does to the queues it does
while it is admitted. A `shutdown_now` that has found `inflight_submissions` at zero has
closed the gate before, so nothing is added to the queues that it drains.
-/

namespace QubitConcurrent

namespace FixedPool

/-! ### Roles -/

/-- The role a submission plays. -/
def SubmitPhase.role : SubmitPhase → Role
  | checking => .away
  | entering => .arriving
  | rechecking => .counted
  | retreating => .refused
  | reserving | reservingFrom _ | reverifying | unreserving | counting | probing _
  | probingActive _ _ | pushing _ | waking | wakingPending _ | wakingFrom _ | wakingNotify
  | dropping _ => .admitted
  | retreatAnnouncing | droppingLast _ | droppingAnnounce _ | returned _ => .away

/-- The role a thread plays: only submissions do. -/
def Thread.role : Thread → Role
  | submit _ p => p.role
  | _ => .away

/-- The protocol behind a pool. -/
def Pool.admission (p : Pool) : Admission :=
  ⟨p.inner.accepting, p.inner.inflightSubmissions, p.threads.map Thread.role⟩

variable {s s' : Inner} {k : ℕ} {c : Choice}

/-- Whoever looks for a queue is admitted. -/
theorem SubmitPhase.role_of_isRouting {q : SubmitPhase} (h : q.isRouting = true) :
    q.role = .admitted := by
  cases q with
  | counting | probing | probingActive | pushing => rfl
  | _ => cases h

/-- What a submission does is its turn in the protocol, and it does not touch the gate. -/
theorem SubmitPhase.Turn.admission {q q' : SubmitPhase} {job : Job} (h : Turn s s' job c q q') :
    s'.accepting = s.accepting ∧ Admission.Turn s.accepting s.inflightSubmissions q.role q'.role
      s'.inflightSubmissions := by
  cases h with
  | check hopen hs =>
    subst hs
    exact ⟨rfl, .check hopen⟩
  | enter hs =>
    subst hs
    exact ⟨rfl, .enter⟩
  | pass hopen hs =>
    subst hs
    exact ⟨rfl, .pass hopen⟩
  | refuse hclosed hs =>
    subst hs
    exact ⟨rfl, .refuse hclosed⟩
  | retreatLast _ hs | retreat _ hs =>
    subst hs
    exact ⟨rfl, .rollBack⟩
  | dropLast _ _ hs | drop _ _ hs =>
    subst hs
    exact ⟨rfl, .leave⟩
  | route hq hq' _ _ hs =>
    subst hs
    rw [role_of_isRouting hq, role_of_isRouting hq']
    exact ⟨rfl, .stay _⟩
  | push place hs => exact ⟨(Same.push hs).accepting, (Same.push hs).inflight ▸ .stay _⟩
  | notify hs => exact ⟨(Same.notifyOne hs).accepting, (Same.notifyOne hs).inflight ▸ .stay _⟩
  | _ =>
    subst_vars
    exact ⟨rfl, .stay _⟩

/-- Whoever shuts down leaves the submissions alone, and may close the gate. -/
theorem ShutdownPhase.gate {p p' : ShutdownPhase} (h : p.advance s = some (s', p')) :
    s'.inflightSubmissions = s.inflightSubmissions ∧
      (s'.accepting = s.accepting ∨ s'.accepting = false) := by
  cases p with
  | closing =>
    obtain ⟨rfl, -⟩ := Prod.mk.inj (Option.some.inj h)
    exact ⟨rfl, Or.inr rfl⟩
  | switching =>
    rw [advance] at h
    split_ifs at h <;> obtain ⟨rfl, -⟩ := Prod.mk.inj (Option.some.inj h) <;>
      exact ⟨rfl, Or.inl rfl⟩
  | announcing =>
    obtain ⟨rfl, -⟩ := Prod.mk.inj (Option.some.inj h)
    exact ⟨rfl, Or.inl rfl⟩
  | returned => cases h

/-- So does whoever shuts down at once. -/
theorem ShutdownNowPhase.Turn.gate {q q' : ShutdownNowPhase} (h : Turn s s' k q q') :
    s'.inflightSubmissions = s.inflightSubmissions ∧
      (s'.accepting = s.accepting ∨ s'.accepting = false) := by
  cases h with
  | close hs =>
    subst hs
    exact ⟨rfl, Or.inr rfl⟩
  | drain _ _ _ _ hs => exact ⟨(Same.claim hs).inflight, Or.inl (Same.claim hs).accepting⟩
  | _ =>
    subst_vars
    exact ⟨rfl, Or.inl rfl⟩

/-- **What a thread does is its turn in the protocol, or it closes the gate.** -/
theorem Thread.turn {t t' : Thread} (h : t.advance s k c = some (s', t')) :
    (s'.accepting = s.accepting ∧
      Admission.Turn s.accepting s.inflightSubmissions t.role t'.role s'.inflightSubmissions) ∨
    (s'.accepting = false ∧ s'.inflightSubmissions = s.inflightSubmissions ∧
      t.role = .away ∧ t'.role = .away) := by
  cases Thread.goes h with
  | worker hq =>
    exact Or.inl ⟨(WorkerPhase.same hq).accepting, (WorkerPhase.same hq).inflight ▸ .stay _⟩
  | submit hq => exact Or.inl hq.admission
  | shutdown hq =>
    obtain ⟨hinflight, hsame | hclosed⟩ := ShutdownPhase.gate hq
    · exact Or.inl ⟨hsame, hinflight ▸ .stay _⟩
    · exact Or.inr ⟨hclosed, hinflight, rfl, rfl⟩
  | shutdownNow hq =>
    obtain ⟨hinflight, hsame | hclosed⟩ := hq.gate
    · exact Or.inl ⟨hsame, hinflight ▸ .stay _⟩
    · exact Or.inr ⟨hclosed, hinflight, rfl, rfl⟩
  | termination hq =>
    exact Or.inl
      ⟨(TerminationPhase.same hq).accepting, (TerminationPhase.same hq).inflight ▸ .stay _⟩

/-! ### The protocol is followed -/

/-- **The pool follows the protocol.** -/
theorem follows_step {p p' : Pool} {a : Action} (h : step p a = some p') :
    p.admission.Follows p'.admission := by
  unfold Pool.admission
  rcases step_cases h with ⟨c, rfl, rfl⟩ | ⟨k, c, t, s', t', rfl, hk, hadvance, rfl⟩ |
    ⟨k, rfl, -, rfl⟩
  · rw [List.map_append]
    cases c <;> exact Admission.follows_join
  · have hrole : (p.threads.map Thread.role)[k]? = some t.role := by
      rw [List.getElem?_map, hk, Option.map_some]
    rw [List.map_set]
    rcases Thread.turn hadvance with ⟨hsame, hturn⟩ | ⟨hclosed, hinflight, hold, hnew⟩
    · rw [hsame]
      exact Admission.follows_turn hrole hturn
    · have hset : (p.threads.map Thread.role).set k t'.role = p.threads.map Thread.role := by
        obtain ⟨hlt, hget⟩ := List.getElem?_eq_some_iff.mp hrole
        rw [hnew, ← hold, ← hget, List.set_getElem_self]
      rw [hset, hclosed, hinflight]
      exact Admission.follows_close
  · exact Or.inl rfl

/-- What is reached is reached in the protocol. -/
theorem admission_of_reach {ok : Pool → Action → Prop} {p : Pool} (h : machine.ReachVia ok p) :
    Admission.machine.Reach p.admission := by
  refine h.simulate Pool.admission ?_ fun _ _ _ _ _ hstep => ?_
  · rintro _ ⟨n, capacity, stack, -, rfl⟩
    refine ⟨rfl, rfl, fun r hr => ?_⟩
    obtain ⟨t, ht, rfl⟩ := List.mem_map.mp hr
    rw [(List.mem_replicate.mp ht).2]
    rfl
  · exact (follows_step hstep).imp id fun ⟨act, hact⟩ => ⟨act, trivial, hact⟩

end FixedPool

end QubitConcurrent
