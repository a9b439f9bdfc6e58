import QubitConcurrent.Lib.History
import QubitConcurrent.Lib.Lists

/-!
# A monitor, and waits with a time limit

A `Monitor` is a mutex and a condition variable. `wait_timeout_while` takes the mutex, reads the
clock, and then goes round a loop: it evaluates the predicate, reads the clock again, and waits
on the condition variable for what is left of its time. The wait gives the mutex back, and takes
it again before it returns. `wait_timeout_until` is the same loop with the predicate negated.

Every evaluation, every reading of the clock and every call of the closure is a step of its own,
and so is every taking of the mutex. A wait ends at any moment, because of a notification,
spuriously, or because its time is over: the loop does not look at which. Other threads change
the protected state whenever nobody holds the mutex, and the clock ticks whenever it likes.

A lock or a wait that finds the mutex poisoned goes on with the guard inside the error, so that
poisoning makes no difference and is left out. Times are in nanoseconds.
-/

namespace QubitConcurrent

namespace Lock

variable {T P R : Type}

/-! ### The calls -/

/-- `WaitTimeoutStatus`: how a wait on the condition variable has ended. -/
inductive WaitTimeoutStatus
  /-- Before its time was over. -/
  | woken
  /-- Because its time was over. -/
  | timedOut
  deriving DecidableEq, Repr

/-- `WaitTimeoutResult`. -/
inductive WaitTimeoutResult (R : Type)
  /-- The closure has produced this value. -/
  | ready (value : R)
  /-- The time is over. -/
  | timedOut
  deriving DecidableEq, Repr

/-- The arguments of `wait_timeout_while`. The closures may use, and the predicate may change,
what they capture, which is of type `P`. Where one of them panics it has no answer. -/
structure Arguments (T P R : Type) where
  /-- How long to wait at most. -/
  timeout : ℕ
  /-- Whether to continue waiting. -/
  waiting : P → T → Option Bool × P
  /-- What to do to the state when waiting is no longer required. -/
  f : P → T → Option R × T

/-- A call of one of the two methods. -/
inductive Call (T P R : Type)
  /-- `wait_timeout_while`. -/
  | waitTimeoutWhile (timeout : ℕ) (waiting : P → T → Option Bool × P)
      (f : P → T → Option R × T)
  /-- `wait_timeout_until`. -/
  | waitTimeoutUntil (timeout : ℕ) (ready : P → T → Option Bool × P)
      (f : P → T → Option R × T)

/-- The arguments `wait_timeout_while` is called with, by the caller or by
`wait_timeout_until`. -/
def Call.arguments : Call T P R → Arguments T P R
  | waitTimeoutWhile timeout waiting f => ⟨timeout, waiting, f⟩
  | waitTimeoutUntil timeout ready f =>
    -- `|state| !ready(state)`
    ⟨timeout, fun p state => ((ready p state).1.map not, (ready p state).2), f⟩

/-- `Duration::checked_sub`. -/
def checkedSub (a b : ℕ) : Option ℕ := if b ≤ a then some (a - b) else none

/-! ### The invocations -/

/-- Where an invocation of `wait_timeout_while` stands. -/
inductive Phase (R : Type)
  /-- `self.lock()` is to come. -/
  | locking
  /-- Inside the lock, `Instant::now()` is to come. -/
  | starting
  /-- Inside the lock, at the beginning of an iteration: `waiting(&*guard)` is to come. -/
  | checking
  /-- Inside the lock, no longer to wait: `f(&mut *guard)` is to come. -/
  | accepted
  /-- Inside the lock, to wait: `start.elapsed()` is to come. -/
  | refused
  /-- Inside the lock, with the time elapsed since the start. -/
  | measured (elapsed : ℕ)
  /-- Inside `Condvar::wait_timeout`, with the time requested. -/
  | waiting (remaining : ℕ)
  /-- Inside `Condvar::wait_timeout`, about to take the lock again. -/
  | woken (status : WaitTimeoutStatus)
  /-- Returned. -/
  | returned (result : WaitTimeoutResult R)
  /-- Left by the panic of a closure. -/
  | unwound
  deriving DecidableEq, Repr

/-- Whether an invocation is inside the lock. -/
def Phase.isCritical : Phase R → Bool
  | starting | checking | accepted | refused | measured _ => true
  | locking | waiting _ | woken _ | returned _ | unwound => false

/-- Whether control has left an invocation. -/
def Phase.isOver : Phase R → Bool
  | returned _ | unwound => true
  | _ => false

/-- An invocation of `wait_timeout_while`, with its local variables. -/
structure Invocation (T P R : Type) where
  /-- The call it is for. -/
  call : Call T P R
  /-- What the closures capture. -/
  captures : P
  /-- `start`, once it is set. -/
  start : ℕ
  /-- Where it stands. -/
  phase : Phase R

/-- How long the caller is ready to wait. -/
def Invocation.timeout (i : Invocation T P R) : ℕ := i.call.arguments.timeout

/-! ### The monitor -/

/-- `Monitor`, the threads that wait on it, and the clock. -/
structure Monitor (T P R : Type) where
  /-- The protected state. -/
  state : T
  /-- Which invocation holds the mutex. -/
  holder : Option ℕ
  /-- The time. -/
  now : ℕ
  /-- The invocations so far, those that are over included. -/
  invocations : List (Invocation T P R)

namespace Monitor

/-- An invocation moves on. -/
def set (s : Monitor T P R) (k : ℕ) (i : Invocation T P R) : Monitor T P R :=
  { s with invocations := s.invocations.set k i }

/-- An invocation takes the mutex, if it is free. -/
def lock (s : Monitor T P R) (k : ℕ) (i : Invocation T P R) : Option (Monitor T P R) :=
  if s.holder = none then some { s.set k i with holder := some k } else none

/-- An invocation gives the mutex back. -/
def unlock (s : Monitor T P R) (k : ℕ) (i : Invocation T P R) : Monitor T P R :=
  { s.set k i with holder := none }

/-- An invocation takes its next step. -/
def next (s : Monitor T P R) (k : ℕ) : Option (Monitor T P R) :=
  match s.invocations[k]? with
  | some ⟨c, p, start, .locking⟩ => s.lock k ⟨c, p, start, .starting⟩
  | some ⟨c, p, _, .starting⟩ => some (s.set k ⟨c, p, s.now, .checking⟩)
  | some ⟨c, p, start, .checking⟩ =>
    match c.arguments.waiting p s.state with
    | (some false, p) => some (s.set k ⟨c, p, start, .accepted⟩)
    | (some true, p) => some (s.set k ⟨c, p, start, .refused⟩)
    | (none, p) => some (s.unlock k ⟨c, p, start, .unwound⟩)
  | some ⟨c, p, start, .accepted⟩ =>
    match c.arguments.f p s.state with
    | (some value, state) =>
      some ({ s with state := state }.unlock k ⟨c, p, start, .returned (.ready value)⟩)
    | (none, state) => some ({ s with state := state }.unlock k ⟨c, p, start, .unwound⟩)
  | some ⟨c, p, start, .refused⟩ => some (s.set k ⟨c, p, start, .measured (s.now - start)⟩)
  | some ⟨c, p, start, .measured elapsed⟩ =>
    let remaining := (checkedSub c.arguments.timeout elapsed).getD 0
    if remaining = 0 then some (s.unlock k ⟨c, p, start, .returned .timedOut⟩)
    -- the wait enters the wait set and releases the mutex at once
    else some (s.unlock k ⟨c, p, start, .waiting remaining⟩)
  | some ⟨c, p, start, .woken _⟩ => s.lock k ⟨c, p, start, .checking⟩
  | _ => none

/-- A wait on the condition variable ends: by a notification, spuriously, or because its time
is over. -/
def wake (s : Monitor T P R) (k : ℕ) (status : WaitTimeoutStatus) : Option (Monitor T P R) :=
  match s.invocations[k]? with
  | some ⟨c, p, start, .waiting _⟩ => some (s.set k ⟨c, p, start, .woken status⟩)
  | _ => none

/-- Somebody else changes what the closures of an invocation capture. -/
def influence (s : Monitor T P R) (k : ℕ) (p : P) : Option (Monitor T P R) :=
  (s.invocations[k]?).map fun i => s.set k { i with captures := p }

/-- Another thread takes the mutex, changes the protected state, and gives the mutex back. -/
def write (s : Monitor T P R) (state : T) : Option (Monitor T P R) :=
  if s.holder = none then some { s with state := state } else none

end Monitor

/-- The actions of the threads around a monitor. -/
inductive Action (T P R : Type)
  /-- A thread calls one of the two methods. -/
  | call (c : Call T P R) (captures : P)
  /-- An invocation takes its next step. -/
  | next (invocation : ℕ)
  /-- A wait on the condition variable ends. -/
  | wake (invocation : ℕ) (status : WaitTimeoutStatus)
  /-- Somebody else changes what the closures of an invocation capture. -/
  | influence (invocation : ℕ) (captures : P)
  /-- Another thread changes the protected state. -/
  | write (state : T)
  /-- Time passes. -/
  | tick (time : ℕ)

/-- One step around a monitor. -/
def Monitor.step (s : Monitor T P R) : Action T P R → Option (Monitor T P R)
  | .call c p => some { s with invocations := s.invocations ++ [⟨c, p, 0, .locking⟩] }
  | .next k => s.next k
  | .wake k status => s.wake k status
  | .influence k p => s.influence k p
  | .write state => s.write state
  | .tick time => some { s with now := s.now + time }

/-- **The machine of a monitor** that protects a first state. -/
def machine (P R : Type) (first : T) : Machine (Monitor T P R) (Action T P R) where
  init s := s.state = first ∧ s.holder = none ∧ s.invocations = []
  step := Monitor.step

/-! ### What is written down -/

/-- What an invocation, or somebody else, does. -/
inductive Event (T R : Type)
  /-- The invocation takes the mutex: a critical section begins. -/
  | locked
  /-- `Instant::now()`, and its answer. -/
  | started (now : ℕ)
  /-- The predicate is evaluated at a time and on a state, and is satisfied or not, or
  panics. -/
  | evaluated (now : ℕ) (state : T) (satisfied : Option Bool)
  /-- The clock is read for `start.elapsed()`. -/
  | read (now : ℕ)
  /-- A wait is requested for a time, and the mutex is given back. -/
  | waited (remaining : ℕ)
  /-- The closure is called on a state, returns a value or panics, and leaves a state behind. -/
  | invoked (state : T) (value : Option R) (state' : T)
  /-- The invocation returns `TimedOut`, and leaves a state behind. -/
  | timedOut (state : T)
  /-- Another thread leaves a state behind. -/
  | wrote (state : T)
  deriving DecidableEq

/-- **Whether the predicate is satisfied** on a state: the one of `wait_timeout_while` is
satisfied where it does not say to wait, the one of `wait_timeout_until` where it says that the
state is ready. -/
def Call.satisfied : Call T P R → P → T → Option Bool
  | waitTimeoutWhile _ waiting _, p, state => (waiting p state).1.map not
  | waitTimeoutUntil _ ready _, p, state => (ready p state).1

/-- What is written down of the next step of an invocation that comes to a phase by it. -/
def Invocation.event (s : Monitor T P R) (i : Invocation T P R) (phase' : Option (Phase R)) :
    List (Event T R) :=
  match i.phase with
  | .locking | .woken _ => [.locked]
  | .starting => [.started s.now]
  | .checking => [.evaluated s.now s.state (i.call.satisfied i.captures s.state)]
  | .accepted =>
    [.invoked s.state (i.call.arguments.f i.captures s.state).1
      (i.call.arguments.f i.captures s.state).2]
  | .refused => [.read s.now]
  | .measured _ =>
    match phase' with
    | some (.waiting remaining) => [.waited remaining]
    | _ => [.timedOut s.state]
  | _ => []

/-- The observer writes down what the invocations do, and what others do to the state. -/
def watch (s : Monitor T P R) (a : Action T P R) (s' : Monitor T P R) :
    List (Option ℕ × Event T R) :=
  match a with
  | .next k => ((s.invocations[k]?).elim [] fun i =>
      i.event s ((s'.invocations[k]?).map Invocation.phase)).map fun e => (some k, e)
  | .write state => [(none, .wrote state)]
  | _ => []

end Lock

end QubitConcurrent
