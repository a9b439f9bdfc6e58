import QubitConcurrent.Lib.Machine
import Mathlib.Tactic.Common
import Mathlib.Algebra.Order.Ring.Nat

/-!
# Closing a gate and telling those who wait for it

A protocol many components use to end in an orderly way. There is a gate that can be closed,
a count of those inside, and a broadcast for those who wait until the gate is closed and
nobody is inside – until it is *down*. Whoever closes the gate, and whoever leaves last,
looks whether the gate is down and broadcasts if so.

Nothing makes a waiter's look at the gate and its registration one step. A waiter that has
found the gate not down and has not registered yet is *exposed*: a broadcast passes it by.
The point of this file is that this is the only way to miss the last broadcast
(`QubitConcurrent.Gate.waiting_eq_zero`): as long as no broadcast is made while somebody is
exposed, nobody waits in vain.

Only numbers are kept of who is where. A component is connected to the gate by a map from
its states under which every step is one of the gate or none at all
(`QubitConcurrent.Gate.Follows`, made for `QubitConcurrent.Machine.ReachVia.simulate`).
-/

namespace QubitConcurrent

/-- A gate and the numbers of those around it. -/
structure Gate where
  /-- Whether the gate is closed. -/
  closed : Bool
  /-- How many are inside. -/
  active : ℕ
  /-- How many are going to look whether they have to broadcast. -/
  owed : ℕ
  /-- How many have found the gate not down, and have not registered yet. -/
  exposed : ℕ
  /-- How many have registered and were not reached by a broadcast. -/
  waiting : ℕ
  deriving DecidableEq, Repr

namespace Gate

/-- Whether the gate is closed and nobody is inside. -/
def isDown (g : Gate) : Bool := g.closed && g.active == 0

/-- What can happen at a gate. -/
inductive Act
  /-- Somebody enters. -/
  | enter
  /-- Somebody leaves, and owes a look if they were the last. -/
  | leave
  /-- Somebody takes it upon them to look later. -/
  | promise
  /-- One of those who will look closes the gate. -/
  | close
  /-- One of those who look finds that there is nothing to broadcast. -/
  | abandon
  /-- A waiter finds the gate not down. -/
  | look
  /-- A waiter who has looked registers. -/
  | register
  /-- A waiter who has looked goes away. -/
  | forget
  /-- A registered waiter goes away. -/
  | withdraw
  /-- One of those who look broadcasts. -/
  | announce
  deriving DecidableEq, Repr

/-- What an act does to the gate, where it is possible. -/
def step (g : Gate) : Act → Option Gate
  | .enter => if g.closed then none else some { g with active := g.active + 1 }
  | .leave =>
    some { g with active := g.active - 1, owed := if g.active - 1 = 0 then g.owed + 1 else g.owed }
  | .promise => some { g with owed := g.owed + 1 }
  | .close => if g.owed = 0 then none else some { g with closed := true }
  | .abandon => if g.isDown then none else some { g with owed := g.owed - 1 }
  | .look => if g.isDown then none else some { g with exposed := g.exposed + 1 }
  | .register =>
    if g.exposed = 0 then none
    else some { g with exposed := g.exposed - 1, waiting := g.waiting + 1 }
  | .forget => some { g with exposed := g.exposed - 1 }
  | .withdraw => some { g with waiting := g.waiting - 1 }
  | .announce => some { g with owed := g.owed - 1, waiting := 0 }

/-- The gate as a machine. A run starts at an open gate with nobody around. -/
def machine : Machine Gate Act where
  init g := g = ⟨false, 0, 0, 0, 0⟩
  step := step

/-- Nobody is exposed when a broadcast is made. -/
def Timely (g : Gate) (a : Act) : Prop := a = .announce → g.exposed = 0

/-- **Where the gate is down, somebody will still look, or nobody is left to be told.** -/
def Safe (g : Gate) : Prop := g.isDown = true → 0 < g.owed ∨ g.exposed + g.waiting = 0

/-- An act that is not a broadcast over somebody's head keeps the gate safe. -/
theorem Safe.step {g g' : Gate} {a : Act} (h : g.Safe) (htimely : Timely g a)
    (hstep : g.step a = some g') : g'.Safe := by
  intro hdown
  cases a with
  | enter =>
    simp only [Gate.step] at hstep
    split_ifs at hstep
    obtain rfl := Option.some.inj hstep
    exact absurd hdown (by simp [isDown])
  | leave =>
    obtain rfl := Option.some.inj hstep
    -- the last one to leave owes a look
    have hzero : g.active - 1 = 0 := by
      simpa [isDown] using (Bool.and_eq_true_iff.mp hdown).2
    exact Or.inl (by simp [hzero])
  | promise =>
    obtain rfl := Option.some.inj hstep
    exact Or.inl (Nat.succ_pos _)
  | close =>
    simp only [Gate.step] at hstep
    split_ifs at hstep with howed
    obtain rfl := Option.some.inj hstep
    exact Or.inl (Nat.pos_of_ne_zero howed)
  | abandon =>
    simp only [Gate.step] at hstep
    split_ifs at hstep with hup
    obtain rfl := Option.some.inj hstep
    exact absurd hdown hup
  | look =>
    simp only [Gate.step] at hstep
    split_ifs at hstep with hup
    obtain rfl := Option.some.inj hstep
    exact absurd hdown hup
  | register =>
    simp only [Gate.step] at hstep
    split_ifs at hstep with hexposed
    obtain rfl := Option.some.inj hstep
    refine (h hdown).imp id fun hnobody => ?_
    exact absurd (Nat.eq_zero_of_add_eq_zero_right hnobody) hexposed
  | forget =>
    obtain rfl := Option.some.inj hstep
    refine (h hdown).imp id fun hnobody => ?_
    change g.exposed - 1 + g.waiting = 0
    omega
  | withdraw =>
    obtain rfl := Option.some.inj hstep
    refine (h hdown).imp id fun hnobody => ?_
    change g.exposed + (g.waiting - 1) = 0
    omega
  | announce =>
    obtain rfl := Option.some.inj hstep
    exact Or.inr (by simp [htimely rfl])

/-- Every run without a broadcast over somebody's head is safe. -/
theorem safe_of_reach {g : Gate} (hg : machine.ReachVia Timely g) : g.Safe := by
  refine hg.invariant (fun g hinit => ?_) fun _ _ _ _ h htimely hstep => h.step htimely hstep
  intro hdown
  rw [hinit] at hdown
  exact absurd hdown (by simp [isDown])

/-- **Nobody waits in vain**: where the gate is down and nobody is going to look any more,
nobody is registered, unless a broadcast was made while somebody was exposed. -/
theorem waiting_eq_zero {g : Gate} (hg : machine.ReachVia Timely g) (hdown : g.isDown = true)
    (howed : g.owed = 0) : g.waiting = 0 := by
  rcases safe_of_reach hg hdown with hpos | hnobody
  · omega
  · omega

/-! ### Following the gate -/

/-- One timely act leads from one gate to another, or none is needed. -/
def Follows (g g' : Gate) : Prop := g' = g ∨ ∃ a, Timely g a ∧ g.step a = some g'

namespace Follows

variable {g g' : Gate}

/-- Nothing happens at the gate. -/
theorem refl (g : Gate) : Follows g g := Or.inl rfl

/-- Somebody enters an open gate. -/
theorem enter (hopen : g.closed = false) (hg : g' = { g with active := g.active + 1 }) :
    Follows g g' :=
  Or.inr ⟨.enter, nofun, by simp [step, hopen, hg]⟩

/-- Somebody leaves. -/
theorem leave (hg : g' = { g with
      active := g.active - 1, owed := if g.active - 1 = 0 then g.owed + 1 else g.owed }) :
    Follows g g' :=
  Or.inr ⟨.leave, nofun, by simp [step, hg]⟩

/-- Somebody takes it upon them to look later. -/
theorem promise (hg : g' = { g with owed := g.owed + 1 }) : Follows g g' :=
  Or.inr ⟨.promise, nofun, by simp [step, hg]⟩

/-- One of those who will look closes the gate. -/
theorem close (howed : 0 < g.owed) (hg : g' = { g with closed := true }) : Follows g g' :=
  Or.inr ⟨.close, nofun, by simp [step, howed.ne', hg]⟩

/-- One of those who look finds that there is nothing to broadcast. -/
theorem abandon (hup : g.isDown = false) (hg : g' = { g with owed := g.owed - 1 }) :
    Follows g g' :=
  Or.inr ⟨.abandon, nofun, by simp [step, hup, hg]⟩

/-- A waiter finds the gate not down. -/
theorem look (hup : g.isDown = false) (hg : g' = { g with exposed := g.exposed + 1 }) :
    Follows g g' :=
  Or.inr ⟨.look, nofun, by simp [step, hup, hg]⟩

/-- A waiter who has looked registers. -/
theorem register (hexposed : 0 < g.exposed)
    (hg : g' = { g with exposed := g.exposed - 1, waiting := g.waiting + 1 }) : Follows g g' :=
  Or.inr ⟨.register, nofun, by simp [step, hexposed.ne', hg]⟩

/-- A waiter who has looked goes away. -/
theorem forget (hg : g' = { g with exposed := g.exposed - 1 }) : Follows g g' :=
  Or.inr ⟨.forget, nofun, by simp [step, hg]⟩

/-- A registered waiter goes away. -/
theorem withdraw (hg : g' = { g with waiting := g.waiting - 1 }) : Follows g g' :=
  Or.inr ⟨.withdraw, nofun, by simp [step, hg]⟩

/-- One of those who look broadcasts, and nobody is exposed. -/
theorem announce (hnobody : g.exposed = 0) (hg : g' = { g with owed := g.owed - 1, waiting := 0 }) :
    Follows g g' :=
  Or.inr ⟨.announce, fun _ => hnobody, by simp [step, hg]⟩

end Follows

end Gate

end QubitConcurrent
