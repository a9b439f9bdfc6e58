import QubitConcurrent.Lib.History
import QubitConcurrent.Lock.Sections

/-!
# No notification is lost

Who waits for a predicate without a time limit relies on others to notify it. What a monitor does
for this is to put a call into the wait set in the moment in which its mutex is given back: from
the evaluation that says to wait up to this moment the protected state cannot change, so that a
notification which is sent after a change finds the call in the wait set, or finds it on its way
to evaluate the predicate again.

So after a notification to all, and as long as nobody changes the protected state, whoever is in
the wait set for a predicate is there because the predicate says to wait in this very state
(`QubitConcurrent.Lock.WaitSet.no_lost_wakeup`). And unless new calls are made, a monitor comes to
rest, with nobody left but those in the wait set
(`QubitConcurrent.Lock.WaitSet.comes_to_rest`).

For the latter, who has a guard is taken to be free to go on with it: that a guard is waited with or
dropped is a step of its owner alone. An owner who is blocked in another call of the same monitor
would not take that step, and neither would the call he is blocked in.
-/

namespace QubitConcurrent

namespace Lock

namespace WaitSet

variable {T P R : Type} {s s' : Monitor T P R} {k : ℕ} {first : T}

/-! ### Who waits for good reason -/

/-- The predicate of a call has just said to wait in a state. -/
def Invocation.Refuses (state : T) (i : Invocation T P R) : Prop :=
  ∃ p, i.call.waiting p state = (some true, i.captures)

/-- Whether a call is about to wait for its predicate. -/
def Phase.isRefused : Phase R → Bool
  | refused | measured _ => true
  | _ => false

/-- Somebody changes what the closures of a call capture. -/
def Action.isInfluence : Action T P R → Bool
  | .influence .. => true
  | _ => false

/-- Whoever is about to wait does so for good reason. -/
def Monitor.Sound (s : Monitor T P R) : Prop :=
  ∀ (k : ℕ) i, s.invocations[k]? = some i → i.phase.isRefused = true → i.Refuses s.state

/-- Whoever is in the wait set for a predicate is there for good reason. -/
def Monitor.Heard (s : Monitor T P R) : Prop :=
  ∀ (k : ℕ) i, s.invocations[k]? = some i → i.call.waits = true → i.phase.isParked = true →
    i.Refuses s.state

/-- Who is about to wait is inside. -/
theorem Phase.isCritical_of_isRefused {phase : Phase R} (h : phase.isRefused = true) :
    phase.isCritical = true := by
  cases phase <;> first | rfl | cases h

/-- **By a turn a call comes to wait for good reason only**, and does not touch the state then. -/
theorem Turn.refuses {i i' : Invocation T P R} {holder' : Option ℕ} {state' : T}
    {marks : List (Mark (Deed T R))} (h : Turn s k i i' holder' state' marks)
    (hi : i.phase.isRefused = true → i.Refuses s.state)
    (hi' : i'.phase.isRefused = true ∨ i'.call.waits = true ∧ i'.phase.isParked = true) :
    state' = s.state ∧ i'.Refuses s.state := by
  cases h with
  | refuse c p p' start hwaiting => exact ⟨rfl, p, hwaiting⟩
  | park | measure | parkFor => exact ⟨rfl, hi rfl⟩
  | lock c p start | relock c p start status =>
    cases c <;> rcases hi' with h | ⟨-, h⟩ <;> cases h
  | awaitNotification | wait => rcases hi' with h | ⟨h, -⟩ <;> cases h
  | _ => rcases hi' with h | ⟨-, h⟩ <;> cases h

/-- Who leaves the wait set was there, and is not about to wait. -/
theorem Woken.stays (h : Woken s s') {i : Invocation T P R} (hk : s'.invocations[k]? = some i)
    (hi : i.phase.isRefused = true ∨ i.phase.isParked = true) :
    s.invocations[k]? = some i := by
  obtain ⟨i₀, hi₀, rfl | ⟨remaining, status, -, rfl⟩⟩ := h.rouses k i hk
  · exact hi₀
  · rcases hi with h | h <;> cases h

/-- **Steps keep those sound who are about to wait**, since nobody else is inside. -/
theorem Monitor.Sound.step (h : s.Sound) (hexclusive : s.Exclusive) {a : Action T P R}
    (ha : a.isInfluence = false) (hstep : s.step a = some s') : s'.Sound := by
  intro j u hj hrefused
  rcases step_cases hstep with ⟨c, p, -, rfl⟩ |
    ⟨s₁, k, i, i', holder', state', marks, hwoken, -, hk, hturn, rfl, -⟩ |
    ⟨k, f, p, start, -, hk, rfl⟩ | ⟨k, status, c, p, start, remaining, -, hk, rfl⟩ |
    ⟨k, p, i, rfl, -, -⟩ | ⟨time, -, rfl⟩
  · rcases getElem?_concat_cases hj with hold | ⟨-, rfl⟩
    · exact h j u hold hrefused
    · cases c <;> cases hrefused
  · have hsound : ∀ (k : ℕ) i, s₁.invocations[k]? = some i → i.phase.isRefused = true →
        i.Refuses s₁.state := fun k i hk hi => hwoken.state ▸ h k i (hwoken.stays hk (.inl hi)) hi
    rcases getElem?_set_cases hk hj with ⟨rfl, rfl⟩ | ⟨hne, hold⟩
    · obtain ⟨hstate, hrefuses⟩ := hturn.refuses (hsound j i hk) (.inl hrefused)
      exact hstate ▸ hrefuses
    · -- beside one that is inside nobody changes the state
      have hexclusive₁ := hexclusive.woken hwoken
      have hstate : state' = s₁.state := by
        cases hi : i.phase.isCritical with
        | true =>
          exact absurd (Phase.isCritical_of_isRefused hrefused)
            (hexclusive₁.not_isCritical hk hi hold hne.symm)
        | false => exact ((hturn.holder (hexclusive₁.holder_eq hk)).1 hi).1
      exact hstate ▸ hsound j u hold hrefused
  · rcases eq_or_ne j k with rfl | hne
    · obtain rfl := Option.some.inj (hk.symm.trans hj)
      cases hrefused
    · exact absurd (Phase.isCritical_of_isRefused hrefused)
        (hexclusive.not_isCritical hk rfl hj hne)
  · exact h j u ((Woken.of_set hk status).stays hj (.inl hrefused)) hrefused
  · cases ha
  · exact h j u hj hrefused

/-- So in every run in which only the calls themselves change what their closures capture. -/
theorem sound_of_reach
    (hs : (machine P R first).ReachVia (fun _ a => a.isInfluence = false) s) :
    s.Exclusive ∧ s.Sound := by
  refine hs.invariant (I := fun s => s.Exclusive ∧ s.Sound) (fun s hinit => ?_)
    fun s a s' _ h ha hstep => ⟨h.1.step hstep, h.2.step h.1 ha hstep⟩
  obtain ⟨-, hfree, hnil⟩ := hinit
  refine ⟨fun j => ?_, fun j i hj => ?_⟩
  · simp [Monitor.inside, hnil, hfree]
  · rw [hnil] at hj
    cases hj

/-- Where the state does not change, whoever comes to be in the wait set is there for good
reason. -/
theorem Monitor.Heard.step (h : s.Heard) (hsound : s.Sound) {a : Action T P R}
    (ha : a.isInfluence = false) (hstep : s.step a = some s') (hstate : s'.state = s.state) :
    s'.Heard := by
  intro j u hj hwaits hparked
  rw [hstate]
  rcases step_cases hstep with ⟨c, p, -, rfl⟩ |
    ⟨s₁, k, i, i', holder', state', marks, hwoken, -, hk, hturn, rfl, -⟩ |
    ⟨k, f, p, start, -, hk, rfl⟩ | ⟨k, status, c, p, start, remaining, -, hk, rfl⟩ |
    ⟨k, p, i, rfl, -, -⟩ | ⟨time, -, rfl⟩
  · rcases getElem?_concat_cases hj with hold | ⟨-, rfl⟩
    · exact h j u hold hwaits hparked
    · cases c <;> cases hparked
  · rcases getElem?_set_cases hk hj with ⟨rfl, rfl⟩ | ⟨-, hold⟩
    · have hi : i.phase.isRefused = true → i.Refuses s₁.state := fun hi =>
        hwoken.state ▸ hsound j i (hwoken.stays hk (.inl hi)) hi
      exact hwoken.state ▸ (hturn.refuses hi (.inr ⟨hwaits, hparked⟩)).2
    · exact h j u (hwoken.stays hold (.inr hparked)) hwaits hparked
  · exact h j u hj hwaits hparked
  · exact h j u ((Woken.of_set hk status).stays hj (.inr hparked)) hwaits hparked
  · cases ha
  · exact h j u hj hwaits hparked

/-! ### After a notification -/

/-- A step that changes neither the protected state nor, from outside, what closures capture. -/
def Quiet (s s' : Monitor T P R) : Prop :=
  ∃ a : Action T P R, a.isInfluence = false ∧ s.step a = some s' ∧ s'.state = s.state

/-- Right after a notification to all nobody is in the wait set. -/
theorem nobody_parked {p : P} {start : ℕ}
    (hk : s.invocations[k]? = some ⟨.notifyAll, p, start, .notifying⟩) (hnext : s.next k = some s')
    {j : ℕ} {i : Invocation T P R} (hj : s'.invocations[j]? = some i) :
    i.phase.isParked = false := by
  rw [Monitor.next, hk] at hnext
  obtain rfl := Option.some.inj hnext
  have hall := Woken.of_notifyAll s
  rcases getElem?_set_cases (hall.getElem? hk rfl) hj with ⟨-, rfl⟩ | ⟨-, hold⟩
  · rfl
  · simp only [Monitor.notifyAll, List.getElem?_map, Option.map_eq_some_iff] at hold
    obtain ⟨i₀, -, rfl⟩ := hold
    unfold Invocation.notified
    split
    · rfl
    · next hphase =>
      cases h : i₀.phase with
      | parked remaining => exact absurd h (hphase remaining)
      | _ => rfl

/-- **No notification is lost.** In every run around a monitor in which what closures capture is
changed by the calls themselves only: after a notification to all, and as long as nobody changes
the protected state, whoever is in the wait set for a predicate has evaluated it, and it says to
wait in this very state. -/
theorem no_lost_wakeup {u v t : Monitor T P R}
    (hu : (machine P R first).ReachVia (fun _ a => a.isInfluence = false) u) {p : P} {start : ℕ}
    (hk : u.invocations[k]? = some ⟨.notifyAll, p, start, .notifying⟩) (hnext : u.next k = some v)
    (hquiet : Relation.ReflTransGen Quiet v t) :
    t.state = v.state ∧ ∀ (j : ℕ) i, t.invocations[j]? = some i → i.call.waits = true →
      i.phase.isParked = true → ∃ p, i.call.waiting p t.state = (some true, i.captures) := by
  have hstep : (machine P R first).step u (.next k) = some v := hnext
  have hv : (machine P R first).ReachVia (fun _ a => a.isInfluence = false) v := hu.next rfl hstep
  suffices h : (machine P R first).ReachVia (fun _ a => a.isInfluence = false) t ∧
      t.state = v.state ∧ t.Heard from h.2
  induction hquiet with
  | refl =>
    refine ⟨hv, rfl, fun j i hj _ hparked => ?_⟩
    rw [nobody_parked hk hnext hj] at hparked
    cases hparked
  | tail _ hlast ih =>
    obtain ⟨hreach, hstate, hheard⟩ := ih
    obtain ⟨a, ha, hstep, hsame⟩ := hlast
    exact ⟨hreach.next ha hstep, hsame.trans hstate,
      hheard.step (sound_of_reach hreach).2 ha hstep hsame⟩

/-- Somebody waits until a number is two. Somebody else makes it one and notifies all: the first one
finds that it is one, and waits again. -/
theorem no_lost_wakeup_again :
    ∃ (c : Call ℕ Unit ℕ) (t : Monitor ℕ Unit ℕ), t.state = 1 ∧
      t.invocations[0]? = some ⟨c, (), 0, .parked none⟩ ∧
      ∃ p, c.waiting p 1 = (some true, ()) := by
  let c : Call ℕ Unit ℕ :=
    .waitUntil (fun _ n => (some (decide (2 ≤ n)), ())) fun _ n => (some n, n)
  let d : Call ℕ Unit ℕ := .write fun _ n => (some n, n + 1)
  have hrun : (machine Unit ℕ (0 : ℕ)).exec (fun _ a => !a.isInfluence) ⟨0, none, 0, []⟩
      [.call c (), .next 0, .next 0, .next 0, .call d (), .next 1, .next 1, .call .notifyAll ()] =
      some ⟨1, none, 0, [⟨c, (), 0, .parked none⟩, ⟨d, (), 0, .returned (.value 0)⟩,
        ⟨.notifyAll, (), 0, .notifying⟩]⟩ := rfl
  have hfirst : (machine Unit ℕ (0 : ℕ)).ReachVia (fun _ a => a.isInfluence = false)
      ⟨0, none, 0, []⟩ := .start ⟨rfl, rfl, rfl⟩
  have hu := Machine.reachVia_of_exec (fun _ _ h => by simpa using h) _ hfirst hrun
  -- the mutex is taken again, the predicate is evaluated, and the mutex is given back
  have hquiet : Relation.ReflTransGen Quiet
      ⟨1, none, 0, [⟨c, (), 0, .woken .woken⟩, ⟨d, (), 0, .returned (.value 0)⟩,
        ⟨.notifyAll, (), 0, .returned .unit⟩]⟩
      ⟨1, none, 0, [⟨c, (), 0, .parked none⟩, ⟨d, (), 0, .returned (.value 0)⟩,
        ⟨.notifyAll, (), 0, .returned .unit⟩]⟩ :=
    .tail (.tail (.tail .refl ⟨.next 0, rfl, rfl, rfl⟩) ⟨.next 0, rfl, rfl, rfl⟩)
      ⟨.next 0, rfl, rfl, rfl⟩
  have hheard := (no_lost_wakeup hu (k := 2) rfl rfl hquiet).2 0 _ rfl rfl rfl
  exact ⟨c, ⟨1, none, 0, [⟨c, (), 0, .parked none⟩, ⟨d, (), 0, .returned (.value 0)⟩,
    ⟨.notifyAll, (), 0, .returned .unit⟩]⟩, rfl, rfl, hheard⟩

/-! ### A monitor comes to rest -/

/-- A call takes its turn, or the owner of a guard waits with it or drops it. What he does to the
protected state in between is not a turn: it brings no call nearer to its end. -/
def Action.isTurn : Action T P R → Bool
  | .next _ | .notify .. | .wait .. | .drop _ => true
  | _ => false

/-- A wait ends without a notification. -/
def Action.isWake : Action T P R → Bool
  | .wake .. => true
  | _ => false

/-- A call is made. -/
def Action.isCall : Action T P R → Bool
  | .call .. => true
  | _ => false

/-- How many turns a call still takes, or makes others take, until it is over or in the wait set,
where so many calls were made. -/
def Phase.effort (n : ℕ) : Phase R → ℕ
  | locking => 5
  | starting | woken _ => 4
  | checking => 3
  | refused => 2
  | accepted | measured _ | guarded | leaving _ => 1
  | notifying => 4 * n + 1
  | parked _ | returned _ | unwound => 0

/-- How many turns all of them do. -/
def Monitor.effort (s : Monitor T P R) : ℕ :=
  (s.invocations.map fun i => i.phase.effort s.invocations.length).sum

/-- **Every turn brings a call nearer to its end**, and a notification pays for whom it takes out
of the wait set. -/
theorem Turn.effort {i i' : Invocation T P R} {holder' : Option ℕ} {state' : T}
    {marks : List (Mark (Deed T R))} (h : Turn s k i i' holder' state' marks) (n : ℕ) :
    i'.phase.effort n < i.phase.effort n ∧
      (i.phase = .notifying → i'.phase.effort n + 4 * n < i.phase.effort n) := by
  cases h with
  | lock c p start | relock c p start status =>
    refine ⟨?_, nofun⟩
    cases c <;> simp [Call.entered, Call.resumed, Phase.effort]
  | notify => exact ⟨Nat.succ_pos _, fun _ => by simp [Phase.effort]⟩
  | _ => exact ⟨by simp [Phase.effort], nofun⟩

/-- Whoever leaves the wait set has four turns to take. -/
theorem Invocation.Rouses.effort {i i' : Invocation T P R} (h : i.Rouses i') (n : ℕ) :
    i'.phase.effort n ≤ i.phase.effort n + 4 := by
  rcases h with rfl | ⟨remaining, status, hphase, rfl⟩
  · exact Nat.le_add_right _ _
  · rw [hphase]
    exact Nat.le_refl _

/-- So have all together who do. -/
theorem Woken.effort (h : Woken s s') : s'.effort ≤ s.effort + 4 * s.invocations.length := by
  have hall : List.Forall₂ Invocation.Rouses s.invocations s'.invocations := by
    rw [List.forall₂_iff_get]
    refine ⟨h.length.symm, fun j hj hj' => ?_⟩
    obtain ⟨i, hi, hrouses⟩ := h.rouses j _ (List.getElem?_eq_getElem hj')
    rw [List.getElem?_eq_getElem hj] at hi
    obtain rfl := Option.some.inj hi
    exact hrouses
  unfold Monitor.effort
  rw [h.length]
  exact sum_map_le_of_forall₂ (fun i i' hi => hi.effort _) hall

/-- **A step and what it costs**: every turn lowers the effort that is left, a wait that ends
without a notification raises it by four, and nothing else does, but a new call. -/
theorem effort_step {a : Action T P R} (ha : a.isCall = false) (hstep : s.step a = some s') :
    s'.effort + a.isTurn.toNat ≤ s.effort + 4 * a.isWake.toNat := by
  have hset : ∀ {s : Monitor T P R} {k : ℕ} {i : Invocation T P R}, s.invocations[k]? = some i →
      ∀ i' holder' state', ∃ rest, s.effort = rest + i.phase.effort s.invocations.length ∧
        (s.after k i' holder' state').effort = rest + i'.phase.effort s.invocations.length := by
    intro s k i hk i' holder' state'
    unfold Monitor.effort Monitor.after
    simp only [List.length_set]
    exact sum_map_set _ hk i'
  rcases step_cases hstep with ⟨c, p, rfl, -⟩ |
    ⟨s₁, k, i, i', holder', state', marks, hwoken, hnotifying, hk, hturn, rfl, -⟩ |
    ⟨k, f, p, start, rfl, -, rfl⟩ | ⟨k, status, c, p, start, remaining, rfl, hk, rfl⟩ |
    ⟨k, p, i, rfl, hk, rfl⟩ | ⟨time, rfl, rfl⟩
  · cases ha
  · obtain ⟨rest, hbefore, hafter⟩ := hset hk i' holder' state'
    obtain ⟨hless, hpaid⟩ := hturn.effort s₁.invocations.length
    have hone : a.isTurn.toNat ≤ 1 := Bool.toNat_le _
    rcases hnotifying with rfl | hphase
    · omega
    · have hwoken' := hwoken.effort
      have hpaid' := hpaid hphase
      rw [hwoken.length] at hpaid' hbefore hafter
      omega
  · exact Nat.le_refl _
  · obtain ⟨rest, hbefore, hafter⟩ := hset hk ⟨c, p, start, .woken status⟩ s.holder s.state
    simp only [Phase.effort] at hbefore hafter
    simp only [Action.isTurn, Action.isWake, Bool.toNat_false, Bool.toNat_true]
    change Monitor.effort (s.after k _ s.holder s.state) + 0 ≤ _
    omega
  · obtain ⟨rest, hbefore, hafter⟩ := hset hk { i with captures := p } s.holder s.state
    simp only [Action.isTurn, Action.isWake, Bool.toNat_false] at hafter ⊢
    change Monitor.effort (s.after k _ s.holder s.state) + 0 ≤ _
    omega
  · exact Nat.le_refl _

/-- **Whoever is inside can take a turn.** -/
theorem exists_turn (hs : (machine P R first).Reach s) {i : Invocation T P R}
    (hk : s.invocations[k]? = some i) (hi : i.phase.isCritical = true) :
    ∃ a : Action T P R, a.isTurn = true ∧ (s.step a).isSome = true := by
  obtain ⟨log, hlog⟩ := Machine.exists_observe watch hs
  have htold := (kept_of_reach hlog).2.2.told k i hk
  obtain ⟨c, p, start, phase⟩ := i
  cases phase with
  | guarded =>
    -- whoever has a guard waits for a notification, or can drop it
    generalize story (some k) log = es at htold
    cases htold with
    | notifyGuarded timeout => exact ⟨.next k, rfl, by simp [Monitor.step, Monitor.next, hk]⟩
    | guarded => exact ⟨.drop k, rfl, by simp [Monitor.step, Monitor.drop, hk]⟩
  | checking | accepted | refused =>
    refine ⟨.next k, rfl, ?_⟩
    rw [Monitor.step, Monitor.next, hk]
    dsimp only
    split <;> rfl
  | measured elapsed =>
    refine ⟨.next k, rfl, ?_⟩
    rw [Monitor.step, Monitor.next, hk]
    dsimp only
    split_ifs <;> rfl
  | starting | leaving status => exact ⟨.next k, rfl, by simp [Monitor.step, Monitor.next, hk]⟩
  | _ => cases hi

/-- **Where nobody can take a turn, everybody is over or in the wait set**, and the mutex is
free. -/
theorem at_rest (hs : (machine P R first).Reach s)
    (hstill : ∀ a : Action T P R, a.isTurn = true → s.step a = none) :
    s.holder = none ∧ ∀ i ∈ s.invocations, i.phase.isOver = true ∨ i.phase.isParked = true := by
  obtain ⟨log, hlog⟩ := Machine.exists_observe watch hs
  obtain ⟨hexclusive, -, hstoried⟩ := kept_of_reach hlog
  have hout : ∀ {k : ℕ} {i : Invocation T P R}, s.invocations[k]? = some i →
      ¬i.phase.isCritical = true := by
    intro k i hk hi
    obtain ⟨a, ha, hsome⟩ := exists_turn hs hk hi
    rw [hstill a ha] at hsome
    cases hsome
  have hfree : s.holder = none := by
    cases hholder : s.holder with
    | none => rfl
    | some j =>
      have hinside := (hexclusive j).mpr hholder
      obtain ⟨i, hi, hcritical⟩ := (Option.any_eq_true ..).mp hinside
      exact absurd hcritical (hout hi)
  refine ⟨hfree, fun i hi => ?_⟩
  obtain ⟨k, hk⟩ := List.mem_iff_getElem?.mp hi
  have hnone := hstill (.next k) rfl
  have htold := hstoried.told k i hk
  have hcritical := hout hk
  obtain ⟨c, p, start, phase⟩ := i
  cases phase with
  | locking | woken status =>
    rw [Monitor.step, Monitor.next, hk] at hnone
    simp [Monitor.lock, hfree] at hnone
  | notifying =>
    generalize story (some k) log = es at htold
    cases htold with
    | notifying _ _ _ hbegins =>
      cases c with
      | notifyAll =>
        rw [Monitor.step, Monitor.next, hk] at hnone
        cases hnone
      | notifyOne =>
        -- it finds somebody in the wait set, or nobody
        have hnotify : ∀ target, s.notifyOne target = none := fun target => by
          have hnone := hstill (.notify k target) rfl
          rw [Monitor.step, Monitor.notify, hk] at hnone
          exact Option.map_eq_none_iff.mp hnone
        have hany := hnotify none
        rw [Monitor.notifyOne] at hany
        split_ifs at hany with hparked
        obtain ⟨⟨c, p, start, phase⟩, hu, hphase⟩ := List.any_eq_true.mp hparked
        obtain ⟨j, hj⟩ := List.mem_iff_getElem?.mp hu
        have htarget := hnotify (some j)
        cases phase with
        | parked remaining =>
          rw [Monitor.notifyOne, hj] at htarget
          cases htarget
        | _ => cases hphase
      | _ => cases hbegins
  | parked remaining => exact Or.inr rfl
  | returned reply | unwound => exact Or.inl rfl
  | _ => exact absurd rfl hcritical

/-- **A monitor comes to rest.** In every run in which no new calls are made, from any state that
was reached around a monitor: the number of turns the calls take, or the owners of their guards
when they wait or leave, is bounded by the effort that was left, and four turns for every wait
that ends without a notification. And where nobody can take a turn any more, with every owner of a
guard free to take his, the mutex is free, and every call is over or in the wait set. -/
theorem comes_to_rest (hs : (machine P R first).Reach s) {as : List (Action T P R)}
    {t : Monitor T P R} (hrun : (machine P R first).exec (fun _ a => !a.isCall) s as = some t) :
    as.countP Action.isTurn + t.effort ≤ s.effort + 4 * as.countP Action.isWake ∧
      ((∀ a : Action T P R, a.isTurn = true → t.step a = none) →
        t.holder = none ∧
          ∀ i ∈ t.invocations, i.phase.isOver = true ∨ i.phase.isParked = true) := by
  obtain ⟨ht, hcount⟩ := Machine.exec_potential (machine P R first).Reach Monitor.effort
    Action.isTurn Action.isWake 4 (fun u a u' h _ hu => h.next trivial hu)
    (fun u a u' _ ha hu => effort_step (by simpa using ha) hu) as hs hrun
  exact ⟨hcount, at_rest ht⟩

/-- Somebody waits until a number is two, somebody else makes it one, and a third call notifies
all. The three of them come to rest after nine turns, with the first one in the wait set again. -/
theorem comes_to_rest_waiting :
    ∃ s t : Monitor ℕ Unit ℕ, s.effort = 23 ∧ 9 + t.effort ≤ s.effort + 4 * 0 ∧
      t.invocations.map Invocation.phase =
        [.parked none, .returned (.value 0), .returned .unit] ∧
      ((∀ a : Action ℕ Unit ℕ, a.isTurn = true → t.step a = none) → t.holder = none ∧
        ∀ i ∈ t.invocations, i.phase.isOver = true ∨ i.phase.isParked = true) := by
  obtain ⟨s, hs, hp⟩ := Machine.exists_reachVia_of_exec (M := machine Unit ℕ (0 : ℕ))
    (fun _ _ => True) (fun _ _ => true) (fun _ _ _ => trivial) (s := ⟨0, none, 0, []⟩)
    ⟨rfl, rfl, rfl⟩
    [.call (.waitUntil (fun _ n => (some (decide (2 ≤ n)), ())) fun _ n => (some n, n)) (),
      .call (.write fun _ n => (some n, n + 1)) (), .call .notifyAll ()]
    (fun s => decide (s.effort = 23) && ((machine Unit ℕ (0 : ℕ)).exec (fun _ a => !a.isCall) s
      [.next 0, .next 0, .next 0, .next 1, .next 1, .next 2, .next 0, .next 0, .next 0]).any
      fun t : Monitor ℕ Unit ℕ => decide (t.invocations.map Invocation.phase =
        [.parked none, .returned (.value 0), .returned .unit])) (by decide)
  rw [Bool.and_eq_true, Option.any_eq_true] at hp
  obtain ⟨heffort, t, hrun, hphases⟩ := hp
  obtain ⟨hcount, hrest⟩ := comes_to_rest hs hrun
  exact ⟨s, t, of_decide_eq_true heffort, hcount, of_decide_eq_true hphases, hrest⟩

end WaitSet

end Lock

end QubitConcurrent
