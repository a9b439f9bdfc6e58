import QubitConcurrent.Lib.Admission

/-!
# The counter of in-flight submissions

`SubmissionAdmission` and `InflightSubmitCounter`: a gate, and a count of the submissions
that have passed it. `try_enter` looks at the gate, raises the count, looks again, and rolls
back if the gate was closed meanwhile; who has entered calls `leave` when it is done.

This is the protocol of `QubitConcurrent.Admission`, step by step
(`QubitConcurrent.Cas.follows_step`).
-/

namespace QubitConcurrent

namespace Cas

/-! ### The counter -/

/-- Where a submission stands, from `try_enter` to `leave`. -/
inductive Submission
  /-- `try_enter`, before the first `is_open`. -/
  | checking
  /-- Before `fetch_add`. -/
  | counting
  /-- Before the second `is_open`. -/
  | rechecking
  /-- Before the `fetch_sub` of a roll-back. -/
  | rollingBack
  /-- `try_enter` has returned `Rejected`. -/
  | rejected (becameZeroAfterRollback : Bool)
  /-- `try_enter` has returned `Entered`, and `leave` is not called yet. -/
  | entered
  /-- `leave` has returned. -/
  | left (becameZero : Bool)
  deriving DecidableEq, Repr

/-- `SubmissionAdmission` and `InflightSubmitCounter`, and those who use them. -/
structure State where
  /-- `open`. -/
  isOpen : Bool
  /-- `count`. -/
  count : ℕ
  /-- The submissions so far. -/
  submissions : List Submission
  /-- What the calls of `close` have returned. -/
  closes : List Bool
  deriving DecidableEq, Repr

/-- The steps. -/
inductive Action
  /-- Somebody calls `try_enter`. -/
  | tryEnter
  /-- A submission goes on: inside `try_enter`, or it calls `leave`. -/
  | advance (k : ℕ)
  /-- Somebody calls `close`. -/
  | close
  deriving DecidableEq, Repr

/-- The next atomic operation of a submission: the count it leaves, and where it leads. -/
def Submission.advance (isOpen : Bool) (count : ℕ) : Submission → Option (ℕ × Submission)
  | checking => some (count, if isOpen then counting else rejected false)
  | counting => some (count + 1, rechecking)
  | rechecking => some (count, if isOpen then entered else rollingBack)
  | rollingBack => some (count - 1, rejected (count == 1))
  | entered => some (count - 1, left (count == 1))
  | rejected _ | left _ => none

/-- One step. -/
def step (s : State) : Action → Option State
  | .tryEnter => some { s with submissions := s.submissions ++ [.checking] }
  | .advance k => do
    let u ← s.submissions[k]?
    let (count, u') ← u.advance s.isOpen s.count
    return { s with count, submissions := s.submissions.set k u' }
  | .close => some { s with isOpen := false, closes := s.closes ++ [s.isOpen] }

/-- The counter as a machine: `new_open`, and `new`. -/
def machine : Machine State Action where
  init s := s = ⟨true, 0, [], []⟩
  step := step

/-! ### The protocol it follows -/

/-- Whether a submission is between its increment and its decrement. -/
def Submission.isCounted : Submission → Bool
  | rechecking | rollingBack | entered => true
  | _ => false

/-- The role a submission plays. -/
def Submission.role : Submission → Role
  | checking | rejected _ | left _ => .away
  | counting => .arriving
  | rechecking => .counted
  | rollingBack => .refused
  | entered => .admitted

/-- The protocol behind the counter. -/
def State.admission (s : State) : Admission := ⟨s.isOpen, s.count, s.submissions.map (·.role)⟩

/-- Every operation of a submission is its turn in the protocol. -/
theorem Submission.turn {isOpen : Bool} {count count' : ℕ} {u u' : Submission}
    (h : u.advance isOpen count = some (count', u')) :
    Admission.Turn isOpen count u.role u'.role count' := by
  cases u with
  | checking =>
    obtain ⟨rfl, rfl⟩ := Prod.mk.inj (Option.some.inj h)
    cases isOpen with
    | true => exact .check rfl
    | false => exact .stay _
  | counting =>
    obtain ⟨rfl, rfl⟩ := Prod.mk.inj (Option.some.inj h)
    exact .enter
  | rechecking =>
    obtain ⟨rfl, rfl⟩ := Prod.mk.inj (Option.some.inj h)
    cases isOpen with
    | true => exact .pass rfl
    | false => exact .refuse rfl
  | rollingBack =>
    obtain ⟨rfl, rfl⟩ := Prod.mk.inj (Option.some.inj h)
    exact .rollBack
  | entered =>
    obtain ⟨rfl, rfl⟩ := Prod.mk.inj (Option.some.inj h)
    exact .leave
  | rejected | left => cases h

/-- **The counter follows the protocol.** -/
theorem follows_step {s s' : State} {a : Action} (h : step s a = some s') :
    s.admission.Follows s'.admission := by
  cases a with
  | tryEnter =>
    obtain rfl := Option.some.inj h
    unfold State.admission
    rw [List.map_append]
    exact Admission.follows_join
  | close =>
    obtain rfl := Option.some.inj h
    exact Admission.follows_close
  | advance k =>
    obtain ⟨u, hu, h⟩ := Option.bind_eq_some_iff.mp h
    obtain ⟨⟨count, u'⟩, hadvance, h⟩ := Option.bind_eq_some_iff.mp h
    obtain rfl := Option.some.inj h
    have hrole : (s.submissions.map (·.role))[k]? = some u.role := by
      rw [List.getElem?_map, hu, Option.map_some]
    unfold State.admission
    rw [List.map_set]
    exact Admission.follows_turn hrole (Submission.turn hadvance)

/-- What is reached is reached in the protocol. -/
theorem admission_of_reach {s : State} (h : machine.Reach s) :
    Admission.machine.Reach s.admission := by
  refine h.simulate State.admission ?_ fun _ _ _ _ _ hstep => ?_
  · rintro _ rfl
    exact ⟨rfl, rfl, fun r hr => absurd hr (List.not_mem_nil)⟩
  · exact (follows_step hstep).imp id fun ⟨act, hact⟩ => ⟨act, trivial, hact⟩

/-- What comes later comes later in the protocol. -/
theorem admission_later {s s' : State} (hs : machine.Reach s) (h : machine.Later s s') :
    Admission.machine.Later s.admission s'.admission := by
  refine h.simulate State.admission (fun s a s' _ hstep => ?_) hs
  exact follows_step hstep

/-- The count is the number of submissions between their increment and their decrement. -/
theorem count_eq {s : State} (h : machine.Reach s) :
    s.count = s.submissions.countP Submission.isCounted := by
  have hsound : s.count = (s.submissions.map (·.role)).countP Role.isInside :=
    Admission.sound_of_reach (admission_of_reach h)
  rw [hsound, List.countP_map]
  exact List.countP_congr fun u _ => by cases u <;> rfl

/-- **Once the gate is closed and the count was read as zero, nobody is inside, ever.** -/
theorem not_entered_of_later {s s' : State} (hs : machine.Reach s) (hclosed : s.isOpen = false)
    (hzero : s.count = 0) (h : machine.Later s s') : ∀ u ∈ s'.submissions, u ≠ .entered := by
  rintro u hu rfl
  exact Admission.not_admitted_of_later (admission_of_reach hs) hclosed hzero
    (admission_later hs h) .admitted (List.mem_map.mpr ⟨_, hu, rfl⟩) rfl

end Cas

end QubitConcurrent
