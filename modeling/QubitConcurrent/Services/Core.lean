import QubitConcurrent.Lib.Gate
import QubitConcurrent.Lib.Lists
import QubitConcurrent.ThreadPool.Pool

/-!
# What the executor services have in common

Four services that run tasks on somebody else's threads end in the same way. They have an
atomic `shutdown` flag and an atomic count of `active_tasks`; `is_terminated` loads the one
and then the other; whoever sets the flag, and whoever brings the count to zero, calls
`notify_if_terminated`, which does the same two loads and then notifies. No lock is held
over any of this, so each load is a step of its own.

Who waits for termination differs: three services hand out a future on a `Notify`
(`QubitConcurrent.Services.Await`), one blocks on a condition variable. What matters of a
waiter is said in `QubitConcurrent.Services.Waiter`, and the lemmas of this file connect
each common step to the one it is at the gate (`QubitConcurrent.Gate`).
-/

namespace QubitConcurrent

namespace Services

/-! ### The common steps -/

/-- Where a call of `notify_if_terminated` stands. -/
inductive Announce
  /-- `shutdown.load()` is to come. -/
  | loadShutdown
  /-- `active_tasks.is_zero()` is to come. -/
  | loadActive
  /-- The notification is to come. -/
  | notify
  deriving DecidableEq, Repr

/-- Where a call of `is_terminated` stands. -/
inductive Query
  /-- `shutdown.load()` is to come. -/
  | loadShutdown
  /-- `active_tasks.is_zero()` is to come. -/
  | loadActive
  /-- Returned. -/
  | answered (answer : Bool)
  deriving DecidableEq, Repr

/-- What a call on a service returned. -/
inductive Reply
  /-- `submit_callable`, or `spawn`, with the task that was accepted. -/
  | submit (result : Except ThreadPool.RejectedExecution ℕ)
  /-- The submission left by the panic of whoever was to create the thread or the task. -/
  | submitPanicked
  /-- `shutdown`. -/
  | shutdown
  /-- `shutdown_now`. -/
  | shutdownNow (report : ThreadPool.ShutdownReport)
  deriving DecidableEq

/-- Who may wait for termination: what a notification does to them, whether they are
between a look that has found no termination and their registration, and whether they are
registered and were not notified. -/
class Waiter (A : Type) where
  /-- Notified. -/
  wake : A → A
  /-- Has looked in vain, and has not registered. -/
  isExposed : A → Bool
  /-- Has registered, and was not notified. -/
  isWaiting : A → Bool
  /-- A notification does not reach who is not registered. -/
  isExposed_wake : ∀ a, isExposed (wake a) = isExposed a
  /-- A notification reaches everybody who is registered. -/
  isWaiting_wake : ∀ a, isWaiting (wake a) = false

/-- What the services have in common. -/
structure Core (A : Type) where
  /-- `shutdown`. -/
  shutdown : Bool
  /-- `active_tasks`. -/
  activeTasks : ℕ
  /-- The calls waiting for termination, those that have returned included. -/
  waiters : List A
  /-- The calls of `is_terminated` made so far. -/
  queries : List Query

namespace Core

variable {A : Type} [Waiter A]

/-- The state a service starts from. -/
def new : Core A := ⟨false, 0, [], []⟩

/-- Whether `is_terminated` answers `true`, when nobody interferes. -/
def isTerminated (c : Core A) : Bool := c.shutdown && c.activeTasks == 0

/-- `notify_if_terminated` takes its next step. It returns where no step is left. -/
def announce (c : Core A) : Announce → Option Announce × Core A
  | .loadShutdown => (if c.shutdown then some .loadActive else none, c)
  | .loadActive => (if c.activeTasks = 0 then some .notify else none, c)
  | .notify => (none, { c with waiters := c.waiters.map Waiter.wake })

/-- `active_tasks.dec()`, and `notify_if_terminated` if its answer is zero. -/
def leave (c : Core A) : Option Announce × Core A :=
  (if c.activeTasks - 1 = 0 then some .loadShutdown else none,
    { c with activeTasks := c.activeTasks - 1 })

/-- `active_tasks.inc()`. -/
def enter (c : Core A) : Core A := { c with activeTasks := c.activeTasks + 1 }

/-- `shutdown.store(true)`. -/
def close (c : Core A) : Core A := { c with shutdown := true }

/-- A new call of `is_terminated`. -/
def query (c : Core A) : Core A := { c with queries := c.queries ++ [.loadShutdown] }

/-- A call of `is_terminated` takes its next step. -/
def queryNext (c : Core A) (k : ℕ) : Option (Core A) :=
  match c.queries[k]? with
  | some .loadShutdown =>
    some { c with queries := c.queries.set k (if c.shutdown then .loadActive else .answered false) }
  | some .loadActive =>
    some { c with queries := c.queries.set k (.answered (c.activeTasks == 0)) }
  | _ => none

/-- `notify_if_terminated` does not touch the flag. -/
@[simp] theorem shutdown_announce (c : Core A) (a : Announce) :
    (c.announce a).2.shutdown = c.shutdown := by
  cases a <;> rfl

omit [Waiter A] in
/-- `is_terminated` does not touch the flag. -/
theorem shutdown_queryNext {c c' : Core A} {k : ℕ} (h : c.queryNext k = some c') :
    c'.shutdown = c.shutdown := by
  rw [queryNext] at h
  split at h
  · obtain rfl := Option.some.inj h
    rfl
  · obtain rfl := Option.some.inj h
    rfl
  · exact absurd h (by simp)

/-- `notify_if_terminated` does not touch the count. -/
@[simp] theorem activeTasks_announce (c : Core A) (a : Announce) :
    (c.announce a).2.activeTasks = c.activeTasks := by
  cases a <;> rfl

omit [Waiter A] in
/-- `is_terminated` does not touch the count. -/
theorem activeTasks_queryNext {c c' : Core A} {k : ℕ} (h : c.queryNext k = some c') :
    c'.activeTasks = c.activeTasks := by
  rw [queryNext] at h
  split at h
  · obtain rfl := Option.some.inj h
    rfl
  · obtain rfl := Option.some.inj h
    rfl
  · exact absurd h (by simp)

/-- A waiter moves on. -/
def setWaiter (c : Core A) (k : ℕ) (a : A) : Core A := { c with waiters := c.waiters.set k a }

/-- Whether a waiter has looked in vain and has not registered yet. -/
def someExposed (c : Core A) : Bool := c.waiters.any Waiter.isExposed

end Core

/-! ### Waiting on a `Notify` -/

/-- Where a future of `await_termination` stands. A `Notified` is woken by every
`notify_waiters` after its creation, polled or not. -/
inductive Await
  /-- `is_terminated` is to come. -/
  | loadShutdown
  /-- `is_terminated` has loaded the flag and will load the count. -/
  | loadActive
  /-- `is_terminated` has answered `false`; `notified()` is to come. -/
  | failed
  /-- The `Notified` was created, and not polled yet. -/
  | created (woken : Bool)
  /-- The `Notified` was polled and is pending. -/
  | pending (woken : Bool)
  /-- The future is ready. -/
  | returned
  /-- The future was dropped. -/
  | dropped
  deriving DecidableEq, Repr

namespace Await

/-- Reached by `notify_waiters`. -/
def wake : Await → Await
  | created _ => created true
  | pending _ => pending true
  | a => a

/-- Between a failed check and the creation of its `Notified`. -/
def isExposed : Await → Bool
  | failed => true
  | _ => false

/-- In possession of a `Notified` that was not woken. -/
def isWaiting : Await → Bool
  | created false | pending false => true
  | _ => false

/-- Pending on a `Notified` that was not woken. -/
def isStranded : Await → Bool
  | pending false => true
  | _ => false

instance : Waiter Await where
  wake := wake
  isExposed := isExposed
  isWaiting := isWaiting
  isExposed_wake a := by cases a <;> rfl
  isWaiting_wake a := by cases a <;> rfl

end Await

namespace Core

/-- A call of `await_termination`. -/
def await (c : Core Await) : Core Await := { c with waiters := c.waiters ++ [.loadShutdown] }

/-- A future of `await_termination` takes its next step. -/
def awaitNext (c : Core Await) (k : ℕ) : Option (Core Await) :=
  match c.waiters[k]? with
  | some .loadShutdown => some (c.setWaiter k (if c.shutdown then .loadActive else .failed))
  | some .loadActive => some (c.setWaiter k (if c.activeTasks = 0 then .returned else .failed))
  | some .failed => some (c.setWaiter k (.created false))
  | some (.created false) => some (c.setWaiter k (.pending false))
  | some (.created true) | some (.pending true) => some (c.setWaiter k .loadShutdown)
  | _ => none

/-- A future of `await_termination` is dropped before it is ready. -/
def awaitDrop (c : Core Await) (k : ℕ) : Option (Core Await) :=
  match c.waiters[k]? with
  | some .returned | some .dropped | none => none
  | some _ => some (c.setWaiter k .dropped)

/-- A future of `await_termination` does not touch the flag. -/
theorem shutdown_awaitNext {c c' : Core Await} {k : ℕ} (h : c.awaitNext k = some c') :
    c'.shutdown = c.shutdown := by
  rw [awaitNext] at h
  split at h
  case h_7 => exact absurd h (by simp)
  all_goals
    obtain rfl := Option.some.inj h
    rfl

/-- Dropping a future of `await_termination` does not touch the flag. -/
theorem shutdown_awaitDrop {c c' : Core Await} {k : ℕ} (h : c.awaitDrop k = some c') :
    c'.shutdown = c.shutdown := by
  rw [awaitDrop] at h
  split at h
  case h_4 =>
    obtain rfl := Option.some.inj h
    rfl
  all_goals exact absurd h (by simp)

/-- A future of `await_termination` does not touch the count. -/
theorem activeTasks_awaitNext {c c' : Core Await} {k : ℕ} (h : c.awaitNext k = some c') :
    c'.activeTasks = c.activeTasks := by
  rw [awaitNext] at h
  split at h
  case h_7 => exact absurd h (by simp)
  all_goals
    obtain rfl := Option.some.inj h
    rfl

/-- Dropping a future of `await_termination` does not touch the count. -/
theorem activeTasks_awaitDrop {c c' : Core Await} {k : ℕ} (h : c.awaitDrop k = some c') :
    c'.activeTasks = c.activeTasks := by
  rw [awaitDrop] at h
  split at h
  case h_4 =>
    obtain rfl := Option.some.inj h
    rfl
  all_goals exact absurd h (by simp)

end Core

/-! ### The gate behind the common state -/

namespace Core

variable {A : Type} [Waiter A]

/-- The gate, with the number of those who are going to look. -/
def gate (c : Core A) (owed : ℕ) : Gate where
  closed := c.shutdown
  active := c.activeTasks
  owed := owed
  exposed := c.waiters.countP Waiter.isExposed
  waiting := c.waiters.countP Waiter.isWaiting

/-- The gate is down where the service is terminated. -/
@[simp] theorem isDown_gate (c : Core A) (owed : ℕ) : (c.gate owed).isDown = c.isTerminated := rfl

/-- How many looks a call that may be in `notify_if_terminated` owes. -/
def due : Option Announce → ℕ
  | some _ => 1
  | none => 0

/-- Nobody is exposed, in numbers. -/
theorem exposed_eq_zero {c : Core A} (h : c.someExposed = false) (owed : ℕ) :
    (c.gate owed).exposed = 0 := by
  refine List.countP_eq_zero.mpr fun a ha => ?_
  rw [someExposed, List.any_eq_false] at h
  exact h a ha

/-- Somebody who was inside leaves. -/
theorem follows_leave (c : Core A) (owed : ℕ) :
    (c.gate owed).Follows (c.leave.2.gate (owed + due c.leave.1)) := by
  refine .leave ?_
  by_cases hzero : c.activeTasks - 1 = 0
  · simp [leave, gate, hzero, due]
  · simp [leave, gate, hzero, due]

/-- Somebody who looks takes their next step, not over anybody's head. -/
theorem follows_announce (c : Core A) (owed : ℕ) (a : Announce)
    (hnobody : a = .notify → c.someExposed = false) :
    (c.gate (owed + 1)).Follows ((c.announce a).2.gate (owed + due (c.announce a).1)) := by
  cases a with
  | loadShutdown =>
    by_cases hshutdown : c.shutdown = true
    · rw [announce, if_pos hshutdown]
      exact .refl _
    · rw [announce, if_neg hshutdown]
      exact .abandon (by simp [isTerminated, hshutdown]) rfl
  | loadActive =>
    by_cases hzero : c.activeTasks = 0
    · rw [announce, if_pos hzero]
      exact .refl _
    · rw [announce, if_neg hzero]
      exact .abandon (by simp [isTerminated, hzero]) rfl
  | notify =>
    have hexposed := exposed_eq_zero (hnobody rfl) (owed + 1)
    refine .announce hexposed ?_
    have hsame : (c.waiters.map Waiter.wake).countP Waiter.isExposed =
        c.waiters.countP Waiter.isExposed := by
      rw [List.countP_map]
      exact List.countP_congr fun a _ => by simp [Waiter.isExposed_wake]
    have hnone : (c.waiters.map Waiter.wake).countP Waiter.isWaiting = 0 := by
      rw [List.countP_map, List.countP_eq_zero]
      intro a _
      simp [Waiter.isWaiting_wake]
    simp [announce, gate, due, hsame, hnone]

/-- One of those who will look sets the flag. -/
theorem follows_close (c : Core A) {owed : ℕ} (howed : 0 < owed) :
    (c.gate owed).Follows (c.close.gate owed) :=
  .close howed rfl

/-- Somebody enters while the flag is not set. -/
theorem follows_enter {c : Core A} (hopen : c.shutdown = false) (owed : ℕ) :
    (c.gate owed).Follows (c.enter.gate owed) :=
  .enter hopen rfl

/-- Asking whether the service is terminated happens outside the gate. -/
theorem gate_queryNext {c c' : Core A} {k : ℕ} (h : c.queryNext k = some c') (owed : ℕ) :
    c'.gate owed = c.gate owed := by
  rw [queryNext] at h
  split at h
  · obtain rfl := Option.some.inj h
    rfl
  · obtain rfl := Option.some.inj h
    rfl
  · exact absurd h (by simp)

/-- The gate after a waiter has moved, in numbers. -/
theorem gate_setWaiter {c : Core A} {k : ℕ} {a : A} (hk : c.waiters[k]? = some a) (b : A)
    (owed : ℕ) :
    ∃ exposed waiting, c.gate owed = ⟨c.shutdown, c.activeTasks, owed,
        exposed + (if Waiter.isExposed a then 1 else 0),
        waiting + (if Waiter.isWaiting a then 1 else 0)⟩ ∧
      (c.setWaiter k b).gate owed = ⟨c.shutdown, c.activeTasks, owed,
        exposed + (if Waiter.isExposed b then 1 else 0),
        waiting + (if Waiter.isWaiting b then 1 else 0)⟩ := by
  obtain ⟨l₁, l₂, hsplit, rfl⟩ := exists_split_of_getElem? hk
  refine ⟨l₁.countP Waiter.isExposed + l₂.countP Waiter.isExposed,
    l₁.countP Waiter.isWaiting + l₂.countP Waiter.isWaiting, ?_, ?_⟩
  · simp only [gate, hsplit, List.countP_append, List.countP_cons, Gate.mk.injEq, true_and]
    omega
  · simp only [gate, setWaiter, hsplit, List.set_append_right _ _ le_rfl, Nat.sub_self,
      List.set_cons_zero, List.countP_append, List.countP_cons, Gate.mk.injEq, true_and]
    omega

/-- A waiter moves on without having looked in vain or registered. -/
theorem follows_unexposed {c : Core A} {k : ℕ} {a b : A} (hk : c.waiters[k]? = some a)
    (hexposed : Waiter.isExposed a = false ∧ Waiter.isExposed b = false)
    (hwaiting : Waiter.isWaiting b = Waiter.isWaiting a) (owed : ℕ) :
    (c.gate owed).Follows ((c.setWaiter k b).gate owed) := by
  obtain ⟨exposed, waiting, hbefore, hafter⟩ := gate_setWaiter hk b owed
  rw [hbefore, hafter, hexposed.1, hexposed.2, hwaiting]
  exact .refl _

/-- A waiter looks in vain. -/
theorem follows_look {c : Core A} {k : ℕ} {a b : A} (hk : c.waiters[k]? = some a)
    (ha : Waiter.isExposed a = false ∧ Waiter.isWaiting a = false)
    (hb : Waiter.isExposed b = true ∧ Waiter.isWaiting b = false)
    (hup : c.isTerminated = false) (owed : ℕ) :
    (c.gate owed).Follows ((c.setWaiter k b).gate owed) := by
  obtain ⟨exposed, waiting, hbefore, hafter⟩ := gate_setWaiter hk b owed
  refine .look (by rw [isDown_gate, hup]) ?_
  rw [hbefore, hafter, ha.1, ha.2, hb.1, hb.2]
  simp

/-- A waiter who has looked registers. -/
theorem follows_register {c : Core A} {k : ℕ} {a b : A} (hk : c.waiters[k]? = some a)
    (ha : Waiter.isExposed a = true ∧ Waiter.isWaiting a = false)
    (hb : Waiter.isExposed b = false ∧ Waiter.isWaiting b = true) (owed : ℕ) :
    (c.gate owed).Follows ((c.setWaiter k b).gate owed) := by
  obtain ⟨exposed, waiting, hbefore, hafter⟩ := gate_setWaiter hk b owed
  rw [hbefore, hafter, ha.1, ha.2, hb.1, hb.2]
  exact .register (by simp) (by simp)

/-- A waiter goes away. -/
theorem follows_away {c : Core A} {k : ℕ} {a b : A} (hk : c.waiters[k]? = some a)
    (hb : Waiter.isExposed b = false ∧ Waiter.isWaiting b = false)
    (hone : Waiter.isExposed a = false ∨ Waiter.isWaiting a = false) (owed : ℕ) :
    (c.gate owed).Follows ((c.setWaiter k b).gate owed) := by
  obtain ⟨exposed, waiting, hbefore, hafter⟩ := gate_setWaiter hk b owed
  rw [hbefore, hafter, hb.1, hb.2]
  rcases hone with hexposed | hwaiting
  · cases hwaiting : Waiter.isWaiting a with
    | true => exact .withdraw (by simp [hexposed])
    | false => exact Or.inl (by simp [hexposed])
  · cases hexposed : Waiter.isExposed a with
    | true => exact .forget (by simp [hwaiting])
    | false => exact Or.inl (by simp [hwaiting])

/-- A new waiter has not looked yet. -/
theorem gate_addWaiter (c : Core A) {a : A} (hexposed : Waiter.isExposed a = false)
    (hwaiting : Waiter.isWaiting a = false) (owed : ℕ) :
    ({ c with waiters := c.waiters ++ [a] } : Core A).gate owed = c.gate owed := by
  simp [gate, hexposed, hwaiting]

/-- A future of `await_termination` takes its next step. -/
theorem follows_awaitNext {c c' : Core Await} {k : ℕ} (h : c.awaitNext k = some c') (owed : ℕ) :
    (c.gate owed).Follows (c'.gate owed) := by
  rw [awaitNext] at h
  split at h
  · next hk =>
    obtain rfl := Option.some.inj h
    by_cases hshutdown : c.shutdown = true
    · rw [if_pos hshutdown]
      exact follows_unexposed hk ⟨rfl, rfl⟩ (by rfl) owed
    · rw [if_neg hshutdown]
      exact follows_look hk ⟨rfl, rfl⟩ ⟨rfl, rfl⟩ (by simp [isTerminated, hshutdown]) owed
  · next hk =>
    obtain rfl := Option.some.inj h
    by_cases hzero : c.activeTasks = 0
    · rw [if_pos hzero]
      exact follows_unexposed hk ⟨rfl, rfl⟩ (by rfl) owed
    · rw [if_neg hzero]
      exact follows_look hk ⟨rfl, rfl⟩ ⟨rfl, rfl⟩ (by simp [isTerminated, hzero]) owed
  · next hk =>
    obtain rfl := Option.some.inj h
    exact follows_register hk ⟨rfl, rfl⟩ ⟨rfl, rfl⟩ owed
  · next hk =>
    obtain rfl := Option.some.inj h
    exact follows_unexposed hk ⟨rfl, rfl⟩ (by rfl) owed
  · next hk =>
    obtain rfl := Option.some.inj h
    exact follows_unexposed hk ⟨rfl, rfl⟩ (by rfl) owed
  · next hk =>
    obtain rfl := Option.some.inj h
    exact follows_unexposed hk ⟨rfl, rfl⟩ (by rfl) owed
  · exact absurd h (by simp)

/-- A future of `await_termination` is dropped. -/
theorem follows_awaitDrop {c c' : Core Await} {k : ℕ} (h : c.awaitDrop k = some c') (owed : ℕ) :
    (c.gate owed).Follows (c'.gate owed) := by
  rw [awaitDrop] at h
  split at h
  · exact absurd h (by simp)
  · exact absurd h (by simp)
  · exact absurd h (by simp)
  · next a _ _ hk =>
    obtain rfl := Option.some.inj h
    refine follows_away hk ⟨rfl, rfl⟩ ?_ owed
    cases a with
    | failed => exact Or.inr rfl
    | _ => exact Or.inl rfl

/-- **What those do who wait for termination, or ask for it.** -/
inductive Turn (c : Core Await) : Core Await → Prop
  /-- `await_termination` is called. -/
  | await : Turn c c.await
  /-- A future of `await_termination` takes a step. -/
  | awaitNext {c' : Core Await} {k : ℕ} (h : c.awaitNext k = some c') : Turn c c'
  /-- A future of `await_termination` is dropped. -/
  | awaitDrop {c' : Core Await} {k : ℕ} (h : c.awaitDrop k = some c') : Turn c c'
  /-- `is_terminated` is called. -/
  | query : Turn c c.query
  /-- A call of `is_terminated` takes a step. -/
  | queryNext {c' : Core Await} {k : ℕ} (h : c.queryNext k = some c') : Turn c c'

namespace Turn

variable {c c' : Core Await}

/-- They do not touch the flag. -/
theorem shutdown (h : Turn c c') : c'.shutdown = c.shutdown := by
  cases h with
  | await | query => rfl
  | awaitNext h => exact shutdown_awaitNext h
  | awaitDrop h => exact shutdown_awaitDrop h
  | queryNext h => exact shutdown_queryNext h

/-- They do not touch the count. -/
theorem activeTasks (h : Turn c c') : c'.activeTasks = c.activeTasks := by
  cases h with
  | await | query => rfl
  | awaitNext h => exact activeTasks_awaitNext h
  | awaitDrop h => exact activeTasks_awaitDrop h
  | queryNext h => exact activeTasks_queryNext h

/-- They follow the gate, whatever is owed. -/
theorem follows (h : Turn c c') (owed : ℕ) : (c.gate owed).Follows (c'.gate owed) := by
  cases h with
  | await => exact Or.inl (gate_addWaiter c rfl rfl owed)
  | awaitNext h => exact follows_awaitNext h owed
  | awaitDrop h => exact follows_awaitDrop h owed
  | query => exact .refl _
  | queryNext h => exact Or.inl (gate_queryNext h owed)

end Turn

end Core

end Services

end QubitConcurrent
