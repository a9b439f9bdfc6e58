import QubitConcurrent.Lib.Serial
import QubitConcurrent.Lock.Monitor

/-!
# A monitor and its wait set

All that can be done with a `Monitor`: its mutex is taken and the guard used as the caller likes,
the protected state is read or written by a closure, a predicate is waited for, with or without a
time limit, a notification is waited for, and notifications are sent to one or to all who wait.

Who waits is in the wait set of the condition variable. A wait puts its caller there and gives
the mutex back at once, which is why no notification is lost in between. It is a notification that
takes somebody out, the time limit of the wait, or nothing at all; and then the mutex has to be
taken again. A notification does not need the mutex, and finds whoever is in the wait set then.

The calls are made by any number of threads, and a call is never over before its thread goes on,
so that threads need not be told apart from their calls. As for waits with a time limit, every
evaluation of a predicate, every call of a closure, every reading of the clock and every taking of
the mutex is a step of its own, and poisoning makes no difference.
-/

namespace QubitConcurrent

namespace Lock

namespace WaitSet

variable {T P R : Type}

/-! ### The calls -/

/-- A call of one of the methods. The closures may use, and the predicates may change, what they
capture, which is of type `P`. Where one of them panics it has no answer. -/
inductive Call (T P R : Type)
  /-- `lock`: the caller gets a guard. -/
  | lock
  /-- `read`. -/
  | read (f : P → T → Option R)
  /-- `write`. -/
  | write (f : P → T → Option R × T)
  /-- `wait_notify`. -/
  | waitNotify (timeout : ℕ)
  /-- `wait_while`. -/
  | waitWhile (waiting : P → T → Option Bool × P) (f : P → T → Option R × T)
  /-- `wait_until`. -/
  | waitUntil (ready : P → T → Option Bool × P) (f : P → T → Option R × T)
  /-- `wait_timeout_while` or `wait_timeout_until`. -/
  | waitTimeout (c : Lock.Call T P R)
  /-- `notify_one`. -/
  | notifyOne
  /-- `notify_all`. -/
  | notifyAll

/-- What a call has returned. -/
inductive Reply (R : Type)
  /-- What the closure has produced. -/
  | value (value : R)
  /-- What a wait with a time limit has returned. -/
  | result (result : WaitTimeoutResult R)
  /-- How the wait for a notification has ended. -/
  | status (status : WaitTimeoutStatus)
  /-- Nothing. -/
  | unit
  deriving DecidableEq, Repr

/-- Where a call stands. -/
inductive Phase (R : Type)
  /-- `self.lock()` is to come. -/
  | locking
  /-- Inside the lock, `Instant::now()` is to come. -/
  | starting
  /-- Inside the lock, at the beginning of an iteration: `waiting(&*guard)` is to come. -/
  | checking
  /-- Inside the lock, with nothing to wait for: the closure is to come. -/
  | accepted
  /-- Inside the lock, to wait: `guard.wait()` or `start.elapsed()` is to come. -/
  | refused
  /-- Inside the lock, with the time elapsed since the start. -/
  | measured (elapsed : ℕ)
  /-- Inside the lock, with a guard. -/
  | guarded
  /-- In the wait set, with the time requested if there is a limit. -/
  | parked (remaining : Option ℕ)
  /-- Out of the wait set, about to take the lock again. -/
  | woken (status : WaitTimeoutStatus)
  /-- Inside the lock, about to return how the wait has ended. -/
  | leaving (status : WaitTimeoutStatus)
  /-- The notification is to come. -/
  | notifying
  /-- Returned. -/
  | returned (reply : Reply R)
  /-- Left by the panic of a closure. -/
  | unwound
  deriving DecidableEq, Repr

/-- Whether a call is inside the lock. -/
def Phase.isCritical : Phase R → Bool
  | starting | checking | accepted | refused | measured _ | guarded | leaving _ => true
  | locking | parked _ | woken _ | notifying | returned _ | unwound => false

/-- Whether a call is in the wait set. -/
def Phase.isParked : Phase R → Bool
  | parked _ => true
  | _ => false

/-- Whether control has left a call. -/
def Phase.isOver : Phase R → Bool
  | returned _ | unwound => true
  | _ => false

namespace Call

/-- The predicate that says whether to continue waiting. `wait_until` is `wait_while` with the
predicate negated. -/
def waiting : Call T P R → P → T → Option Bool × P
  | waitWhile waiting _ => waiting
  | waitUntil ready _ => fun p state => ((ready p state).1.map not, (ready p state).2)
  | waitTimeout c => c.arguments.waiting
  | _ => fun p _ => (some false, p)

/-- The closure. The one of `read` cannot change the state. -/
def f : Call T P R → P → T → Option R × T
  | read f => fun p state => (f p state, state)
  | write f | waitWhile _ f | waitUntil _ f => f
  | waitTimeout c => c.arguments.f
  | _ => fun _ state => (none, state)

/-- The time limit of a wait for a predicate, if it has one. -/
def timeout? : Call T P R → Option ℕ
  | waitTimeout c => some c.arguments.timeout
  | _ => none

/-- What is returned where the closure has produced a value. -/
def reply : Call T P R → R → Reply R
  | waitTimeout _ => fun value => .result (.ready value)
  | _ => .value

/-- Whether a call waits for a predicate. -/
def waits : Call T P R → Bool
  | waitWhile .. | waitUntil .. | waitTimeout _ => true
  | _ => false

/-- Whether a call ends with a closure. -/
def invokes : Call T P R → Bool
  | read _ | write _ | waitWhile .. | waitUntil .. | waitTimeout _ => true
  | _ => false

/-- Where a call begins. -/
def begins : Call T P R → Phase R
  | notifyOne | notifyAll => .notifying
  | _ => .locking

/-- Where a call is once it has taken the lock. -/
def entered : Call T P R → Phase R
  | read _ | write _ => .accepted
  | waitWhile .. | waitUntil .. => .checking
  | waitTimeout _ => .starting
  | _ => .guarded

/-- Where a call is once it has taken the lock again after a wait. -/
def resumed (status : WaitTimeoutStatus) : Call T P R → Phase R
  | lock => .guarded
  | waitNotify _ => .leaving status
  | _ => .checking

end Call

/-- A call that was made, with its local variables. -/
structure Invocation (T P R : Type) where
  /-- The call. -/
  call : Call T P R
  /-- What the closures capture. -/
  captures : P
  /-- `start`, once it is set. -/
  start : ℕ
  /-- Where it stands. -/
  phase : Phase R

/-- A notification to all takes a call out of the wait set. -/
def Invocation.notified (i : Invocation T P R) : Invocation T P R :=
  match i.phase with
  | .parked _ => { i with phase := .woken .woken }
  | _ => i

/-! ### The monitor -/

/-- `Monitor`, the calls that were made, and the clock. -/
structure Monitor (T P R : Type) where
  /-- The protected state. -/
  state : T
  /-- Which call holds the mutex. -/
  holder : Option ℕ
  /-- The time. -/
  now : ℕ
  /-- The calls so far, those that are over included. -/
  invocations : List (Invocation T P R)

namespace Monitor

/-- A call moves on. -/
def set (s : Monitor T P R) (k : ℕ) (i : Invocation T P R) : Monitor T P R :=
  { s with invocations := s.invocations.set k i }

/-- A call takes the mutex, if it is free. -/
def lock (s : Monitor T P R) (k : ℕ) (i : Invocation T P R) : Option (Monitor T P R) :=
  if s.holder = none then some { s.set k i with holder := some k } else none

/-- A call gives the mutex back. -/
def unlock (s : Monitor T P R) (k : ℕ) (i : Invocation T P R) : Monitor T P R :=
  { s.set k i with holder := none }

/-- `Condvar::notify_all`. -/
def notifyAll (s : Monitor T P R) : Monitor T P R :=
  { s with invocations := s.invocations.map Invocation.notified }

/-- `Condvar::notify_one`: it takes one call out of the wait set, if there is any. -/
def notifyOne (s : Monitor T P R) : Option ℕ → Option (Monitor T P R)
  | none => if s.invocations.any fun i => i.phase.isParked then none else some s
  | some j =>
    match s.invocations[j]? with
    | some ⟨c, p, start, .parked _⟩ => some (s.set j ⟨c, p, start, .woken .woken⟩)
    | _ => none

/-- A call takes its next step. -/
def next (s : Monitor T P R) (k : ℕ) : Option (Monitor T P R) :=
  match s.invocations[k]? with
  | some ⟨c, p, start, .locking⟩ => s.lock k ⟨c, p, start, c.entered⟩
  | some ⟨c, p, _, .starting⟩ => some (s.set k ⟨c, p, s.now, .checking⟩)
  | some ⟨c, p, start, .checking⟩ =>
    match c.waiting p s.state with
    | (some false, p) => some (s.set k ⟨c, p, start, .accepted⟩)
    | (some true, p) => some (s.set k ⟨c, p, start, .refused⟩)
    | (none, p) => some (s.unlock k ⟨c, p, start, .unwound⟩)
  | some ⟨c, p, start, .accepted⟩ =>
    match c.f p s.state with
    | (some value, state) =>
      some ({ s with state := state }.unlock k ⟨c, p, start, .returned (c.reply value)⟩)
    | (none, state) => some ({ s with state := state }.unlock k ⟨c, p, start, .unwound⟩)
  | some ⟨c, p, start, .refused⟩ =>
    match c.timeout? with
    -- the wait enters the wait set and releases the mutex at once
    | none => some (s.unlock k ⟨c, p, start, .parked none⟩)
    | some _ => some (s.set k ⟨c, p, start, .measured (s.now - start)⟩)
  | some ⟨c, p, start, .measured elapsed⟩ =>
    let remaining := (checkedSub (c.timeout?.getD 0) elapsed).getD 0
    if remaining = 0 then some (s.unlock k ⟨c, p, start, .returned (.result .timedOut)⟩)
    else some (s.unlock k ⟨c, p, start, .parked (some remaining)⟩)
  | some ⟨.waitNotify timeout, p, start, .guarded⟩ =>
    some (s.unlock k ⟨.waitNotify timeout, p, start, .parked (some timeout)⟩)
  | some ⟨c, p, start, .woken status⟩ => s.lock k ⟨c, p, start, c.resumed status⟩
  | some ⟨c, p, start, .leaving status⟩ =>
    some (s.unlock k ⟨c, p, start, .returned (.status status)⟩)
  | some ⟨.notifyAll, p, start, .notifying⟩ =>
    some (s.notifyAll.set k ⟨.notifyAll, p, start, .returned .unit⟩)
  | _ => none

/-- A call of `notify_one` takes its only step. Whom it takes out of the wait set is up to the
condition variable. -/
def notify (s : Monitor T P R) (k : ℕ) (target : Option ℕ) : Option (Monitor T P R) :=
  match s.invocations[k]? with
  | some ⟨.notifyOne, p, start, .notifying⟩ =>
    (s.notifyOne target).map fun s => s.set k ⟨.notifyOne, p, start, .returned .unit⟩
  | _ => none

/-- The owner of a guard reads the state through it, and writes it. -/
def access (s : Monitor T P R) (k : ℕ) (f : T → T) : Option (Monitor T P R) :=
  match s.invocations[k]? with
  | some ⟨.lock, _, _, .guarded⟩ => some { s with state := f s.state }
  | _ => none

/-- `MonitorGuard::wait`, or `MonitorGuard::wait_timeout`. -/
def wait (s : Monitor T P R) (k : ℕ) (timeout : Option ℕ) : Option (Monitor T P R) :=
  match s.invocations[k]? with
  | some ⟨.lock, p, start, .guarded⟩ => some (s.unlock k ⟨.lock, p, start, .parked timeout⟩)
  | _ => none

/-- The owner of a guard drops it. -/
def drop (s : Monitor T P R) (k : ℕ) : Option (Monitor T P R) :=
  match s.invocations[k]? with
  | some ⟨.lock, p, start, .guarded⟩ => some (s.unlock k ⟨.lock, p, start, .returned .unit⟩)
  | _ => none

/-- A wait on the condition variable ends without a notification: because its time is over, if
it has a limit, or spuriously. -/
def wake (s : Monitor T P R) (k : ℕ) (status : WaitTimeoutStatus) : Option (Monitor T P R) :=
  match s.invocations[k]? with
  | some ⟨c, p, start, .parked remaining⟩ =>
    if status = .timedOut ∧ remaining = none then none
    else some (s.set k ⟨c, p, start, .woken status⟩)
  | _ => none

/-- Somebody else changes what the closures of a call capture. -/
def influence (s : Monitor T P R) (k : ℕ) (p : P) : Option (Monitor T P R) :=
  (s.invocations[k]?).map fun i => s.set k { i with captures := p }

end Monitor

/-- The actions of the threads around a monitor. -/
inductive Action (T P R : Type)
  /-- A thread makes a call. -/
  | call (c : Call T P R) (captures : P)
  /-- A call takes its next step. -/
  | next (k : ℕ)
  /-- A call of `notify_one` notifies somebody, or nobody. -/
  | notify (k : ℕ) (target : Option ℕ)
  /-- The owner of a guard uses it. -/
  | access (k : ℕ) (f : T → T)
  /-- The owner of a guard waits with it. -/
  | wait (k : ℕ) (timeout : Option ℕ)
  /-- The owner of a guard drops it. -/
  | drop (k : ℕ)
  /-- A wait ends without a notification. -/
  | wake (k : ℕ) (status : WaitTimeoutStatus)
  /-- Somebody else changes what the closures of a call capture. -/
  | influence (k : ℕ) (captures : P)
  /-- Time passes. -/
  | tick (time : ℕ)

/-- One step around a monitor. -/
def Monitor.step (s : Monitor T P R) : Action T P R → Option (Monitor T P R)
  | .call c p => some { s with invocations := s.invocations ++ [⟨c, p, 0, c.begins⟩] }
  | .next k => s.next k
  | .notify k target => s.notify k target
  | .access k f => s.access k f
  | .wait k timeout => s.wait k timeout
  | .drop k => s.drop k
  | .wake k status => s.wake k status
  | .influence k p => s.influence k p
  | .tick time => some { s with now := s.now + time }

/-- **The machine of a monitor**, `Monitor::new` of a first state. -/
def machine (P R : Type) (first : T) : Machine (Monitor T P R) (Action T P R) where
  init s := s.state = first ∧ s.holder = none ∧ s.invocations = []
  step := Monitor.step

end WaitSet

end Lock

end QubitConcurrent
