import QubitConcurrent.Lib.History
import QubitConcurrent.Lib.Serial

/-!
# The locks

`Lock` gives mutexes and read-write locks one interface: a closure is called on the protected state
while the lock is held, by a call that waits for the lock or by one that only tries. Here are its
implementations for the locks of the standard library. Such a lock is poisoned by a closure that
panics while it may write, and from then on refuses everybody: a call that waited for it panics
itself, because the result is unwrapped, and one that tried reports it. A read-write lock lets those
who read share it. A mutex lets nobody share it, so that it is poisoned by a closure that only reads
as well.

Who gets a free lock is up to the library, and so is whether one that tries gets it where others
wait for it; it does not get it where it would not be alone. The closures of those who share a
lock get the state behind a shared reference, and do not change it. The shareable handles
`ArcStdMutex` and `ArcRwLock` have the same methods again, on the lock inside.
-/

namespace QubitConcurrent

namespace Lock

namespace Access

variable {T R : Type}

/-! ### The calls -/

/-- `TryLockError`. -/
inductive TryLockError
  /-- Somebody else holds the lock. -/
  | wouldBlock
  /-- The lock is poisoned. -/
  | poisoned
  deriving DecidableEq, Repr

/-- The locks of the standard library with an implementation of `Lock`. -/
inductive Kind
  /-- `std::sync::Mutex`, and `ArcStdMutex`. -/
  | stdMutex
  /-- `std::sync::RwLock`, and `ArcRwLock`. -/
  | stdRwLock
  deriving DecidableEq, Repr

/-- A call of one of the methods. A closure that panics has no answer. -/
inductive Call (T R : Type)
  /-- `read`. -/
  | read (f : T → Option R)
  /-- `write`. -/
  | write (f : T → Option R × T)
  /-- `try_read`. -/
  | tryRead (f : T → Option R)
  /-- `try_write`. -/
  | tryWrite (f : T → Option R × T)

/-- The closure of a call. The ones that read cannot change the state. -/
def Call.f : Call T R → T → Option R × T
  | read f | tryRead f => fun state => (f state, state)
  | write f | tryWrite f => f

/-- Whether a call only reads. -/
def Call.reads : Call T R → Bool
  | read _ | tryRead _ => true
  | write _ | tryWrite _ => false

/-- Whether a call only tries. -/
def Call.isTry : Call T R → Bool
  | tryRead _ | tryWrite _ => true
  | read _ | write _ => false

/-- What a call has returned. -/
inductive Reply (R : Type)
  /-- What the closure has produced, of a call that has waited. -/
  | value (value : R)
  /-- Of one that has tried. -/
  | result (result : Except TryLockError R)
  deriving DecidableEq

/-- What is returned where the closure has produced a value. -/
def Call.accept (c : Call T R) (value : R) : Reply R :=
  if c.isTry then .result (.ok value) else .value value

namespace Kind

/-- How a call holds the lock: nobody shares a mutex. -/
def hold (kind : Kind) (c : Call T R) : Hold :=
  match kind with
  | stdRwLock => if c.reads then .shared else .exclusive
  | stdMutex => .exclusive

/-- Whether a closure that panics poisons the lock, by how it is held. -/
def poisons : Kind → Hold → Bool
  | stdMutex, _ => true
  | stdRwLock, hold => hold = .exclusive

end Kind

/-- Where a call stands. -/
inductive Phase (R : Type)
  /-- The lock is to come. -/
  | locking
  /-- The lock is held. -/
  | inside
  /-- Returned. -/
  | returned (reply : Reply R)
  /-- Left by a panic: of the closure, or of `unwrap` on the result of a poisoned lock. -/
  | unwound
  deriving DecidableEq

/-- Whether a call has the lock. -/
def Phase.isInside : Phase R → Bool
  | inside => true
  | _ => false

/-- A call that was made. -/
structure Invocation (T R : Type) where
  /-- The call. -/
  call : Call T R
  /-- Where it stands. -/
  phase : Phase R

/-! ### The lock -/

/-- A lock, what it protects, and the calls that were made. -/
structure Protected (T R : Type) where
  /-- The protected state. -/
  state : T
  /-- Whether the lock is poisoned. -/
  poisoned : Bool
  /-- The calls so far, those that are over included. -/
  invocations : List (Invocation T R)

namespace Protected

variable (kind : Kind)

/-- Who holds the lock, and how. -/
def held (s : Protected T R) : ℕ → Option Hold := fun k =>
  (s.invocations[k]?).bind fun i => if i.phase.isInside then some (kind.hold i.call) else none

/-- Whether one more can have the lock. -/
def admits (s : Protected T R) : Hold → Bool
  | .shared => s.invocations.all fun i => !(i.phase.isInside && kind.hold i.call = .exclusive)
  | .exclusive => s.invocations.all fun i => !i.phase.isInside

/-- A call moves on. -/
def set (s : Protected T R) (k : ℕ) (i : Invocation T R) : Protected T R :=
  { s with invocations := s.invocations.set k i }

/-- A call takes its next step. Whether the lock is poisoned is found out when it is taken: it
does not change as long as it is held. -/
def next (s : Protected T R) (k : ℕ) : Option (Protected T R) :=
  match s.invocations[k]? with
  | some ⟨c, .locking⟩ =>
    if s.admits kind (kind.hold c) then some (s.set k ⟨c, .inside⟩)
    else if c.isTry then some (s.set k ⟨c, .returned (.result (.error .wouldBlock))⟩)
    else none
  | some ⟨c, .inside⟩ =>
    if s.poisoned then
      if c.isTry then some (s.set k ⟨c, .returned (.result (.error .poisoned))⟩)
      else some (s.set k ⟨c, .unwound⟩)
    else
      match c.f s.state with
      | (some value, state) =>
        some ({ s with state := state }.set k ⟨c, .returned (c.accept value)⟩)
      | (none, state) =>
        some ({ s with state := state, poisoned := kind.poisons (kind.hold c) }.set k
          ⟨c, .unwound⟩)
  | _ => none

/-- A call that tries does not get the lock, because of one that waits for it. -/
def yieldTo (s : Protected T R) (k j : ℕ) : Option (Protected T R) :=
  match s.invocations[k]?, s.invocations[j]? with
  | some ⟨c, .locking⟩, some ⟨d, .locking⟩ =>
    if c.isTry && !d.isTry then some (s.set k ⟨c, .returned (.result (.error .wouldBlock))⟩)
    else none
  | _, _ => none

end Protected

/-- The actions of the threads around a lock. -/
inductive Action (T R : Type)
  /-- A call is made. -/
  | call (c : Call T R)
  /-- A call takes its next step. -/
  | next (k : ℕ)
  /-- A call that tries gives way to one that waits. -/
  | yieldTo (k j : ℕ)

/-- One step around a lock. -/
def Protected.step (kind : Kind) (s : Protected T R) : Action T R → Option (Protected T R)
  | .call c => some { s with invocations := s.invocations ++ [⟨c, .locking⟩] }
  | .next k => s.next kind k
  | .yieldTo k j => s.yieldTo k j

/-- **The machine of a lock** that protects a first state. -/
def machine (kind : Kind) (R : Type) (first : T) : Machine (Protected T R) (Action T R) where
  init s := s.state = first ∧ s.poisoned = false ∧ s.invocations = []
  step := Protected.step kind

/-! ### What is written down -/

/-- A closure is called on a state by one who holds the lock in some way, returns a value or
panics, and leaves a state behind. -/
structure Deed (T R : Type) where
  /-- How the lock is held. -/
  hold : Hold
  /-- The state that was found. -/
  before : T
  /-- What has come out. -/
  value : Option R
  /-- The state that is left behind. -/
  after : T
  deriving DecidableEq

/-- What a deed does to the protected state. -/
def Deed.Does (d : Deed T R) (before after : T) : Prop := before = d.before ∧ after = d.after

/-- Whether a closure has poisoned the lock. -/
def spoils (kind : Kind) : Mark (Deed T R) → Bool
  | .did d => d.value.isNone && kind.poisons d.hold
  | _ => false

/-- Whether a closure was called. -/
def isInvoked : Mark (Deed T R) → Bool
  | .did _ => true
  | _ => false

/-- The deed of a call on a state. -/
def Call.deed (kind : Kind) (c : Call T R) (state : T) : Deed T R :=
  ⟨kind.hold c, state, (c.f state).1, (c.f state).2⟩

/-- What is written down of the next step of a call. -/
def Invocation.marks (kind : Kind) (s : Protected T R) (i : Invocation T R) :
    List (Mark (Deed T R)) :=
  match i.phase with
  | .locking => if s.admits kind (kind.hold i.call) then [.entered (kind.hold i.call)] else []
  | .inside => if s.poisoned then [.left] else [.did (i.call.deed kind s.state), .left]
  | _ => []

/-- The observer writes down what is done with the lock, and under it. -/
def watch (kind : Kind) (s : Protected T R) (a : Action T R) (_ : Protected T R) :
    List (Option ℕ × Mark (Deed T R)) :=
  match a with
  | .next k => ((s.invocations[k]?).elim [] fun i => i.marks kind s).map fun e => (some k, e)
  | _ => []

/-! ### What a step is -/

variable {kind : Kind} {s s' : Protected T R} {k : ℕ} {first : T}

/-- **The turn of a call**: what becomes of it, of the protected state and of the lock, and what is
written down. -/
inductive Turn (kind : Kind) (s : Protected T R) :
    Invocation T R → Invocation T R → T → Bool → List (Mark (Deed T R)) → Prop
  /-- The lock is taken. -/
  | enter (c : Call T R) (h : s.admits kind (kind.hold c) = true) :
      Turn kind s ⟨c, .locking⟩ ⟨c, .inside⟩ s.state s.poisoned [.entered (kind.hold c)]
  /-- A call that tries does not get it. -/
  | refuse (c : Call T R) (h : c.isTry = true) :
      Turn kind s ⟨c, .locking⟩ ⟨c, .returned (.result (.error .wouldBlock))⟩ s.state s.poisoned []
  /-- A call that tries finds the lock poisoned, -/
  | tryPoisoned (c : Call T R) (hpoisoned : s.poisoned = true) (h : c.isTry = true) :
      Turn kind s ⟨c, .inside⟩ ⟨c, .returned (.result (.error .poisoned))⟩ s.state s.poisoned
        [.left]
  /-- or one that has waited. -/
  | unwrapPoisoned (c : Call T R) (hpoisoned : s.poisoned = true) (h : c.isTry = false) :
      Turn kind s ⟨c, .inside⟩ ⟨c, .unwound⟩ s.state s.poisoned [.left]
  /-- The closure is called, -/
  | invoke (c : Call T R) (value : R) (state' : T) (hpoisoned : s.poisoned = false)
      (h : c.f s.state = (some value, state')) :
      Turn kind s ⟨c, .inside⟩ ⟨c, .returned (c.accept value)⟩ state' s.poisoned
        [.did ⟨kind.hold c, s.state, some value, state'⟩, .left]
  /-- or panics. -/
  | panic (c : Call T R) (state' : T) (hpoisoned : s.poisoned = false)
      (h : c.f s.state = (none, state')) :
      Turn kind s ⟨c, .inside⟩ ⟨c, .unwound⟩ state' (kind.poisons (kind.hold c))
        [.did ⟨kind.hold c, s.state, none, state'⟩, .left]

/-- **What a step is**: a call is made, or takes its turn. -/
theorem step_cases {a : Action T R} (hstep : s.step kind a = some s') :
    (∃ c, a = .call c ∧ s' = { s with invocations := s.invocations ++ [⟨c, .locking⟩] }) ∨
    (∃ k i i' state' poisoned' marks, (∀ c, a ≠ .call c) ∧ s.invocations[k]? = some i ∧
      Turn kind s i i' state' poisoned' marks ∧
      s' = ⟨state', poisoned', s.invocations.set k i'⟩ ∧
      watch kind s a s' = marks.map fun e => (some k, e)) := by
  cases a with
  | call c => exact Or.inl ⟨c, rfl, (Option.some.inj hstep).symm⟩
  | next k =>
    refine Or.inr ?_
    simp only [Protected.step, Protected.next] at hstep
    split at hstep
    · next c hk =>
      split_ifs at hstep with hadmits htry
      · obtain rfl := Option.some.inj hstep
        exact ⟨k, _, _, _, _, _, nofun, hk, .enter c hadmits, rfl,
          by simp [watch, hk, Invocation.marks, hadmits]⟩
      · obtain rfl := Option.some.inj hstep
        exact ⟨k, _, _, _, _, _, nofun, hk, .refuse c htry, rfl,
          by simp [watch, hk, Invocation.marks, hadmits]⟩
    · next c hk =>
      split_ifs at hstep with hpoisoned htry
      · obtain rfl := Option.some.inj hstep
        exact ⟨k, _, _, _, _, _, nofun, hk, .tryPoisoned c hpoisoned htry, rfl,
          by simp [watch, hk, Invocation.marks, hpoisoned]⟩
      · obtain rfl := Option.some.inj hstep
        exact ⟨k, _, _, _, _, _, nofun, hk,
          .unwrapPoisoned c hpoisoned (Bool.not_eq_true _ ▸ htry), rfl,
          by simp [watch, hk, Invocation.marks, hpoisoned]⟩
      · rw [Bool.not_eq_true] at hpoisoned
        split at hstep
        · next value state' hf =>
          obtain rfl := Option.some.inj hstep
          exact ⟨k, _, _, _, _, _, nofun, hk, .invoke c value state' hpoisoned hf, rfl,
            by simp [watch, hk, Invocation.marks, hpoisoned, Call.deed, hf]⟩
        · next state' hf =>
          obtain rfl := Option.some.inj hstep
          exact ⟨k, _, _, _, _, _, nofun, hk, .panic c state' hpoisoned hf, rfl,
            by simp [watch, hk, Invocation.marks, hpoisoned, Call.deed, hf]⟩
    · cases hstep
  | yieldTo k j =>
    refine Or.inr ?_
    simp only [Protected.step, Protected.yieldTo] at hstep
    split at hstep
    · next c d hk hj =>
      split_ifs at hstep with htry
      obtain rfl := Option.some.inj hstep
      rw [Bool.and_eq_true] at htry
      exact ⟨k, _, _, _, _, [], nofun, hk, .refuse c htry.1, rfl, rfl⟩
    · cases hstep

/-! ### The log of the sections is serial -/

/-- How one that is found holds the lock. -/
theorem held_of_getElem? {i : Invocation T R} (hk : s.invocations[k]? = some i) :
    s.held kind k = if i.phase.isInside then some (kind.hold i.call) else none := by
  rw [Protected.held, hk, Option.bind_some]

/-- Who is admitted finds nobody inside who excludes him. -/
theorem admitted_of_admits {hold : Hold} (h : s.admits kind hold = true) :
    hold.Admitted (s.held kind) := by
  cases hold with
  | shared =>
    intro j hj
    obtain ⟨i, hi, hheld⟩ := Option.bind_eq_some_iff.mp hj
    have hout := List.all_eq_true.mp h i (List.mem_of_getElem? hi)
    split_ifs at hheld with hinside
    simp [hinside, Option.some.inj hheld] at hout
  | exclusive =>
    intro j
    cases hj : s.invocations[j]? with
    | none => rw [Protected.held, hj, Option.bind_none]
    | some i =>
      have hout := List.all_eq_true.mp h i (List.mem_of_getElem? hj)
      rw [Bool.not_eq_true'] at hout
      rw [held_of_getElem? hj, hout]
      rfl

/-- A call moves on, and holds the lock or not. -/
theorem held_after {i i' : Invocation T R} {state' : T} {poisoned' : Bool}
    (hk : s.invocations[k]? = some i) :
    (⟨state', poisoned', s.invocations.set k i'⟩ : Protected T R).held kind =
      Function.update (s.held kind) k
        (if i'.phase.isInside then some (kind.hold i'.call) else none) := by
  funext j
  rcases eq_or_ne j k with rfl | hne
  · rw [Function.update_self, Protected.held, getElem?_set_of_some hk, Option.bind_some]
  · rw [Function.update_of_ne hne, Protected.held, Protected.held, List.getElem?_set_ne hne.symm]

/-- A call that reads does not change the state, -/
theorem Call.f_reads {c : Call T R} (h : c.reads = true) (state : T) :
    (c.f state).2 = state := by
  cases c <;> first | rfl | cases h

/-- and only such a call shares a lock. -/
theorem Kind.reads_of_hold {c : Call T R} (h : kind.hold c = .shared) : c.reads = true := by
  cases kind <;> cases c <;> first | rfl | cases h

/-- **A turn is a piece of a serial log.** -/
theorem Turn.serial {log : List (Option ℕ × Mark (Deed T R))} {i i' : Invocation T R} {state' : T}
    {poisoned' : Bool} {marks : List (Mark (Deed T R))}
    (h : Turn kind s i i' state' poisoned' marks) (hk : s.invocations[k]? = some i)
    (hlog : Serial Deed.Does first log (s.held kind) s.state) :
    Serial Deed.Does first (log ++ marks.map fun e => (some k, e))
      ((⟨state', poisoned', s.invocations.set k i'⟩ : Protected T R).held kind) state' := by
  have hheld : s.held kind k = _ := held_of_getElem? hk
  rw [held_after hk]
  -- one that is inside does something that shared holds permit, and leaves
  have hdeed : ∀ (c : Call T R) (value : Option R), s.held kind k = some (kind.hold c) →
      c.f s.state = (value, state') →
      Serial Deed.Does first
        (log ++ [(some k, .did ⟨kind.hold c, s.state, value, state'⟩)] ++ [(some k, .left)])
        (Function.update (s.held kind) k none) state' := by
    intro c value hin hf
    refine .leave k (kind.hold c) (.act k (kind.hold c) _ hlog hin ⟨rfl, rfl⟩ fun hshared => ?_) hin
    have hreads := Call.f_reads (Kind.reads_of_hold hshared) s.state
    rw [hf] at hreads
    exact hreads
  cases h with
  | enter c hadmits => exact .enter k _ hlog hheld (admitted_of_admits hadmits)
  | refuse c =>
    have hsame : Function.update (s.held kind) k none = s.held kind :=
      Function.update_eq_self_iff.mpr hheld.symm
    simpa [Phase.isInside, hsame] using hlog
  | tryPoisoned c | unwrapPoisoned c => exact .leave k _ hlog hheld
  | invoke c value state' hpoisoned hf => simpa [Phase.isInside] using hdeed c (some value) hheld hf
  | panic c state' hpoisoned hf => simpa [Phase.isInside] using hdeed c none hheld hf

/-! ### The story of a call -/

/-- **The story of a call so far**, by where it stands. -/
inductive Told (kind : Kind) : Invocation T R → List (Mark (Deed T R)) → Prop
  /-- It has not begun. -/
  | locking (c : Call T R) : Told kind ⟨c, .locking⟩ []
  /-- It holds the lock. -/
  | inside (c : Call T R) : Told kind ⟨c, .inside⟩ [.entered (kind.hold c)]
  /-- The closure was called once, while the lock was held, and what it has produced is
  returned. -/
  | returned (c : Call T R) {state state' : T} {value : R}
      (h : c.f state = (some value, state')) :
      Told kind ⟨c, .returned (c.accept value)⟩
        [.entered (kind.hold c), .did ⟨kind.hold c, state, some value, state'⟩, .left]
  /-- It was called once, and has panicked. -/
  | panicked (c : Call T R) {state state' : T} (h : c.f state = (none, state')) :
      Told kind ⟨c, .unwound⟩
        [.entered (kind.hold c), .did ⟨kind.hold c, state, none, state'⟩, .left]
  /-- A call that tried did not get the lock, and the closure was not called. -/
  | wouldBlock (c : Call T R) (h : c.isTry = true) :
      Told kind ⟨c, .returned (.result (.error .wouldBlock))⟩ []
  /-- It got a poisoned lock, and the closure was not called. -/
  | tryPoisoned (c : Call T R) (h : c.isTry = true) :
      Told kind ⟨c, .returned (.result (.error .poisoned))⟩ [.entered (kind.hold c), .left]
  /-- A call that waited got a poisoned lock, and panicked. -/
  | unwrapPoisoned (c : Call T R) (h : c.isTry = false) :
      Told kind ⟨c, .unwound⟩ [.entered (kind.hold c), .left]

/-- **A call goes on with its story.** -/
theorem Told.turn {i i' : Invocation T R} {state' : T} {poisoned' : Bool}
    {es marks : List (Mark (Deed T R))} (hes : Told kind i es)
    (h : Turn kind s i i' state' poisoned' marks) : Told kind i' (es ++ marks) := by
  cases h with
  | enter c =>
    cases hes
    exact .inside c
  | refuse c htry =>
    cases hes
    exact .wouldBlock c htry
  | tryPoisoned c hpoisoned htry =>
    cases hes
    exact .tryPoisoned c htry
  | unwrapPoisoned c hpoisoned htry =>
    cases hes
    exact .unwrapPoisoned c htry
  | invoke c value state' hpoisoned hf =>
    cases hes
    exact .returned c hf
  | panic c state' hpoisoned hf =>
    cases hes
    exact .panicked c hf

/-! ### Poisoning -/

/-- A turn poisons a lock if its closure panics and the lock is of that kind, and leaves a poisoned
one poisoned. -/
theorem Turn.poisoned_iff {i i' : Invocation T R} {state' : T} {poisoned' : Bool}
    {marks : List (Mark (Deed T R))} (h : Turn kind s i i' state' poisoned' marks) :
    poisoned' = true ↔ s.poisoned = true ∨ ∃ e ∈ marks, spoils kind e = true := by
  cases h with
  | invoke c value state' hpoisoned | panic c state' hpoisoned => simp [spoils, hpoisoned]
  | _ => simp [spoils]

/-- A turn calls no closure, or first of all one that finds the lock not poisoned. -/
theorem Turn.invokes {i i' : Invocation T R} {state' : T} {poisoned' : Bool}
    {marks : List (Mark (Deed T R))} (h : Turn kind s i i' state' poisoned' marks) :
    (∀ e ∈ marks, isInvoked e = false) ∨ s.poisoned = false ∧ ∃ d, marks = [.did d, .left] := by
  cases h with
  | invoke c value state' hpoisoned | panic c state' hpoisoned =>
    exact Or.inr ⟨hpoisoned, _, rfl⟩
  | _ => exact Or.inl (by simp [isInvoked])

/-- Nothing has poisoned the lock so far. -/
def Clean (kind : Kind) (before : List (Option ℕ × Mark (Deed T R))) : Prop :=
  ∀ e ∈ before, spoils kind e.2 = false

/-- **What is true of every run around a lock.** -/
structure Kept (kind : Kind) (first : T) (s : Protected T R)
    (log : List (Option ℕ × Mark (Deed T R))) : Prop where
  /-- The log is serial. -/
  serial : Serial Deed.Does first log (s.held kind) s.state
  /-- Every call has its story. -/
  storied : Storied Protected.invocations (fun _ i es => Told kind i es) s log
  /-- The lock is poisoned if something has poisoned it, -/
  poisoned : s.poisoned = true ↔ ∃ e ∈ log, spoils kind e.2 = true
  /-- and since then no closure was called. -/
  clean : Each (fun before e => isInvoked e.2 = true → Clean kind before) log

/-- **Every step keeps it.** -/
theorem Kept.step {log : List (Option ℕ × Mark (Deed T R))} (h : Kept kind first s log)
    {a : Action T R} (hstep : s.step kind a = some s') :
    Kept kind first s' (log ++ watch kind s a s') := by
  rcases step_cases hstep with ⟨c, rfl, rfl⟩ |
    ⟨k, i, i', state', poisoned', marks, -, hk, hturn, rfl, hmarks⟩
  · change Kept kind first _ (log ++ [])
    rw [List.append_nil]
    refine ⟨?_, h.storied.begins rfl (.locking c) fun _ _ _ _ hes => hes, h.poisoned, h.clean⟩
    have hheld : (⟨s.state, s.poisoned, s.invocations ++ [⟨c, .locking⟩]⟩ : Protected T R).held
        kind = s.held kind := by
      funext j
      rcases eq_or_ne j s.invocations.length with rfl | hne
      · simp [Protected.held, Phase.isInside]
      · rw [Protected.held, Protected.held, getElem?_concat_of_ne hne]
    exact hheld ▸ h.serial
  · rw [hmarks]
    refine ⟨hturn.serial hk h.serial,
      h.storied.moves marks hk rfl (fun es hes => hes.turn hturn)
        fun _ _ _ _ _ hes => hes, ?_, h.clean.append ?_⟩
    · rw [hturn.poisoned_iff, h.poisoned]
      simp [or_and_right, exists_or]
    · rcases hturn.invokes with hnone | ⟨hpoisoned, d, rfl⟩
      · intro before e after heq hinvoked
        have hmem : e ∈ marks.map fun e => (some k, e) := heq ▸ List.mem_append_right _
          (List.mem_cons_self ..)
        obtain ⟨e, he, rfl⟩ := List.mem_map.mp hmem
        exact absurd ((hnone e he).symm.trans hinvoked) (by simp)
      · refine .cons (fun _ e he => ?_) (.cons nofun .nil)
        rw [List.append_nil] at he
        rw [← Bool.not_eq_true]
        intro hspoils
        rw [h.poisoned.mpr ⟨e, he, hspoils⟩] at hpoisoned
        cases hpoisoned

/-- **A lock gives its state to one closure after the other, or to readers together, and never
again once it is poisoned.** In every run around a mutex or a read-write lock: the log of what is
done under it is serial and ends in the protected state and those who hold it; no section that
excludes the others is broken into, and none that is shared sees the state change; every call has
its story; the lock is poisoned exactly if a closure has poisoned it, and after that no closure is
called. -/
theorem lock_of_reach {log : List (Option ℕ × Mark (Deed T R))}
    (hs : ((machine kind R first).observe (watch kind)).Reach (s, log)) :
    Serial Deed.Does first log (s.held kind) s.state ∧
    (∀ k hold before during after,
      log = before ++ (some k, .entered hold) :: (during ++ after) → (some k, .left) ∉ during →
      (hold = .exclusive → ∀ e ∈ during, e.1 = some k) ∧ ∃ held₀ held₁ state₀ state₁,
        Serial Deed.Does first before held₀ state₀ ∧
        Serial Deed.Does first (before ++ (some k, .entered hold) :: during) held₁ state₁ ∧
        (hold = .shared → state₁ = state₀)) ∧
    (∀ (k : ℕ) i, s.invocations[k]? = some i → Told kind i (story (some k) log)) ∧
    (s.poisoned = true ↔ ∃ e ∈ log, spoils kind e.2 = true) ∧
    ∀ before e after, log = before ++ e :: after → spoils kind e.2 = true →
      ∀ e' ∈ after, isInvoked e'.2 = false := by
  have hkept := (Machine.observe_invariant (M := machine kind R first) (p := fun _ _ => True)
    (I := Kept kind first) ?_ (fun s a s' log _ h _ hstep => h.step hstep) hs).2
  · refine ⟨hkept.serial, fun k hold before during after heq hduring =>
      hkept.serial.undisturbed heq hduring, hkept.storied.told, hkept.poisoned,
      fun before e after heq hspoils e' he' => ?_⟩
    obtain ⟨between, rest, rfl⟩ := List.append_of_mem he'
    by_contra hinvoked
    have hclean := hkept.clean (before ++ e :: between) e' rest (by simp [heq])
      (Bool.not_eq_false _ ▸ hinvoked) e (by simp)
    exact absurd (hspoils.symm.trans hclean) (by simp)
  · rintro s ⟨rfl, hpoisoned, hnil⟩
    have hheld : s.held kind = fun _ => none := by
      funext j
      simp [Protected.held, hnil]
    refine ⟨?_, .start hnil, by simp [hpoisoned], .nil⟩
    rw [hheld]
    exact .nil

/-- Two threads read together, and a third one panics while it writes. Somebody who tries to read
then finds the lock poisoned. -/
theorem lock_of_reach_poisoned :
    ∃ (s : Protected ℕ ℕ) (log : List (Option ℕ × Mark (Deed ℕ ℕ))),
      s.invocations.map Invocation.phase = [.returned (.value 5), .returned (.value 5), .unwound,
        .returned (.result (.error .poisoned))] ∧
      log.map Prod.snd = [.entered .shared, .entered .shared, .did ⟨.shared, 5, some 5, 5⟩, .left,
        .did ⟨.shared, 5, some 5, 5⟩, .left, .entered .exclusive, .did ⟨.exclusive, 5, none, 6⟩,
        .left, .entered .shared, .left] ∧
      Serial Deed.Does 5 log (s.held .stdRwLock) s.state ∧
      ∃ e ∈ log, spoils .stdRwLock e.2 = true := by
  obtain ⟨⟨s, log⟩, hs, hp⟩ := Machine.exists_reachVia_of_exec
    (M := (machine .stdRwLock ℕ (5 : ℕ)).observe (watch .stdRwLock)) (fun _ _ => True)
    (fun _ _ => true) (fun _ _ _ => trivial) (s := (⟨5, false, []⟩, [])) ⟨⟨rfl, rfl, rfl⟩, rfl⟩
    [.call (.read some), .call (.read some), .next 0, .next 1, .next 0, .next 1,
      .call (.write fun n => (none, n + 1)), .next 2, .next 2, .call (.tryRead some), .next 3,
      .next 3]
    (fun t => decide (t.1.poisoned = true ∧ t.1.invocations.map Invocation.phase =
      [.returned (.value 5), .returned (.value 5), .unwound,
        .returned (.result (.error .poisoned))] ∧
      t.2.map Prod.snd = [.entered .shared, .entered .shared, .did ⟨.shared, 5, some 5, 5⟩,
        .left, .did ⟨.shared, 5, some 5, 5⟩, .left, .entered .exclusive,
        .did ⟨.exclusive, 5, none, 6⟩, .left, .entered .shared, .left])) (by decide)
  obtain ⟨hpoisoned, hphases, hlog⟩ := of_decide_eq_true hp
  obtain ⟨hserial, -, -, hspoiled, -⟩ := lock_of_reach hs
  exact ⟨s, log, hphases, hlog, hserial, hspoiled.mp hpoisoned⟩

end Access

end Lock

end QubitConcurrent
