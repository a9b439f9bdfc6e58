import QubitConcurrent.Lib.History
import QubitConcurrent.Lib.Lists

/-!
# Admission through a gate that can be closed

A gate, and a count of those who are let in. Whoever wants in looks whether the gate is open,
enters itself in the count, and looks again: if the gate is still open it is admitted, and
otherwise it takes itself out of the count and goes away. Whoever was admitted takes itself
out when it leaves. Whoever closes the gate wants to know when nobody is left inside, and
looks at the count.

The count may rise again after it was zero: there are those who have looked at the gate while
it was open and have not entered themselves yet. But they look once more, after they have.
So where the gate is closed and the count is zero nobody is admitted, and nobody ever will be
(`QubitConcurrent.Admission.not_admitted_of_later`).

A component is connected to this protocol by a map from its threads to the roles they play
in it (`QubitConcurrent.Admission.Turn`, `QubitConcurrent.Admission.follows_turn`).
-/

namespace QubitConcurrent

/-- Where a thread stands in the protocol. -/
inductive Role
  /-- It has nothing to do with it at the moment. -/
  | away
  /-- It has found the gate open, and is not in the count. -/
  | arriving
  /-- It is in the count, and is going to look again. -/
  | counted
  /-- It has found the gate open again. -/
  | admitted
  /-- It has found the gate closed, and is still in the count. -/
  | refused
  deriving DecidableEq, Repr

/-- Whether a thread is in the count. -/
def Role.isInside : Role → Bool
  | counted | admitted | refused => true
  | _ => false

/-- A gate, its count, and those around it. -/
structure Admission where
  /-- Whether the gate is open. -/
  isOpen : Bool
  /-- The count. -/
  count : ℕ
  /-- Where the threads stand. -/
  roles : List Role
  deriving DecidableEq, Repr

namespace Admission

/-! ### The protocol -/

/-- What can happen. -/
inductive Act
  /-- One more thread is there. -/
  | join
  /-- The gate is closed. -/
  | close
  /-- A thread finds the gate open. -/
  | check (k : ℕ)
  /-- It enters itself in the count. -/
  | enter (k : ℕ)
  /-- It finds the gate open again. -/
  | pass (k : ℕ)
  /-- It finds the gate closed. -/
  | refuse (k : ℕ)
  /-- It takes itself out of the count again. -/
  | rollBack (k : ℕ)
  /-- A thread that was admitted takes itself out of the count. -/
  | leave (k : ℕ)
  deriving DecidableEq, Repr

/-- A thread goes from one role to another, and leaves the count as given. -/
def moves (a : Admission) (k : ℕ) (r r' : Role) (count : ℕ) : Option Admission :=
  if a.roles[k]? = some r then some { a with count, roles := a.roles.set k r' } else none

/-- What an act does, where it is possible. -/
def step (a : Admission) : Act → Option Admission
  | .join => some { a with roles := a.roles ++ [.away] }
  | .close => some { a with isOpen := false }
  | .check k => if a.isOpen then a.moves k .away .arriving a.count else none
  | .enter k => a.moves k .arriving .counted (a.count + 1)
  | .pass k => if a.isOpen then a.moves k .counted .admitted a.count else none
  | .refuse k => if a.isOpen then none else a.moves k .counted .refused a.count
  | .rollBack k => a.moves k .refused .away (a.count - 1)
  | .leave k => a.moves k .admitted .away (a.count - 1)

/-- The protocol as a machine. A run starts at an open gate, with nobody inside. -/
def machine : Machine Admission Act where
  init a := a.isOpen = true ∧ a.count = 0 ∧ ∀ r ∈ a.roles, r = .away
  step := step

/-! ### One thread at a time -/

/-- What one thread may do at a gate, from one role and count to another. -/
inductive Turn (isOpen : Bool) (count : ℕ) : Role → Role → ℕ → Prop
  /-- Nothing. -/
  | stay (r : Role) : Turn isOpen count r r count
  /-- It finds the gate open. -/
  | check (h : isOpen = true) : Turn isOpen count .away .arriving count
  /-- It enters itself in the count. -/
  | enter : Turn isOpen count .arriving .counted (count + 1)
  /-- It finds the gate open again. -/
  | pass (h : isOpen = true) : Turn isOpen count .counted .admitted count
  /-- It finds the gate closed. -/
  | refuse (h : isOpen = false) : Turn isOpen count .counted .refused count
  /-- It takes itself out of the count again. -/
  | rollBack : Turn isOpen count .refused .away (count - 1)
  /-- It was admitted, and takes itself out of the count. -/
  | leave : Turn isOpen count .admitted .away (count - 1)

variable {a b : Admission} {act : Act}

/-- **An act is the turn of one thread**, or a thread joins, or the gate is closed. -/
theorem step_cases (h : a.step act = some b) :
    b = { a with roles := a.roles ++ [.away] } ∨ b = { a with isOpen := false } ∨
      ∃ k r r' count, a.roles[k]? = some r ∧ Turn a.isOpen a.count r r' count ∧
        b = { a with count, roles := a.roles.set k r' } := by
  have hmoves : ∀ {k r r' count}, a.moves k r r' count = some b →
      Turn a.isOpen a.count r r' count → ∃ k r r' count, a.roles[k]? = some r ∧
        Turn a.isOpen a.count r r' count ∧ b = { a with count, roles := a.roles.set k r' } := by
    intro k r r' count hmove hturn
    unfold moves at hmove
    split_ifs at hmove with hk
    exact ⟨k, r, r', count, hk, hturn, (Option.some.inj hmove).symm⟩
  cases act with
  | join => exact Or.inl (Option.some.inj h).symm
  | close => exact Or.inr (Or.inl (Option.some.inj h).symm)
  | check k =>
    simp only [step] at h
    split_ifs at h with hopen
    exact Or.inr (Or.inr (hmoves h (.check hopen)))
  | enter k => exact Or.inr (Or.inr (hmoves h .enter))
  | pass k =>
    simp only [step] at h
    split_ifs at h with hopen
    exact Or.inr (Or.inr (hmoves h (.pass hopen)))
  | refuse k =>
    simp only [step] at h
    split_ifs at h with hopen
    exact Or.inr (Or.inr (hmoves h (.refuse (Bool.eq_false_iff.mpr hopen))))
  | rollBack k => exact Or.inr (Or.inr (hmoves h .rollBack))
  | leave k => exact Or.inr (Or.inr (hmoves h .leave))

/-! ### What is kept -/

/-- The count is right. -/
def Sound (a : Admission) : Prop := a.count = a.roles.countP Role.isInside

/-- The gate is closed and nobody is admitted. -/
def Quiet (a : Admission) : Prop := a.isOpen = false ∧ ∀ r ∈ a.roles, r ≠ .admitted

/-- A thread's turn keeps the count right. -/
theorem Sound.turn {k : ℕ} {r r' : Role} {count : ℕ} (h : a.Sound) (hk : a.roles[k]? = some r)
    (hturn : Turn a.isOpen a.count r r' count) :
    Sound { a with count, roles := a.roles.set k r' } := by
  obtain ⟨l₁, l₂, hroles, rfl⟩ := exists_split_of_getElem? hk
  have hcount : a.count = l₁.countP Role.isInside +
      (l₂.countP Role.isInside + if r.isInside then 1 else 0) := by
    rw [h, hroles, List.countP_append, List.countP_cons]
  have hset : a.roles.set l₁.length r' = l₁ ++ r' :: l₂ := by
    rw [hroles]
    simp
  rw [Sound, hset, List.countP_append, List.countP_cons]
  cases hturn with
  | stay => exact hcount
  | check | enter | pass | refuse | rollBack | leave =>
    simp only [Role.isInside, Bool.false_eq_true, if_false, if_true] at hcount ⊢
    omega

/-- Every act keeps the count right. -/
theorem Sound.step (h : a.Sound) (hstep : a.step act = some b) : b.Sound := by
  rcases step_cases hstep with rfl | rfl | ⟨k, r, r', count, hk, hturn, rfl⟩
  · rw [Sound, List.countP_append, h]
    rfl
  · exact h
  · exact h.turn hk hturn

/-- At a closed gate nobody is admitted any more. -/
theorem Quiet.step (h : a.Quiet) (hstep : a.step act = some b) : b.Quiet := by
  obtain ⟨hclosed, hnobody⟩ := h
  rcases step_cases hstep with rfl | rfl | ⟨k, r, r', count, hk, hturn, rfl⟩
  · refine ⟨hclosed, fun r hr => ?_⟩
    rcases List.mem_append.mp hr with hr | hr
    · exact hnobody r hr
    · rw [List.mem_singleton.mp hr]
      exact Role.noConfusion
  · exact ⟨rfl, hnobody⟩
  · refine ⟨hclosed, fun q hq => ?_⟩
    rcases List.mem_or_eq_of_mem_set hq with hq | rfl
    · exact hnobody q hq
    · cases hturn with
      | stay => exact hnobody _ (List.mem_of_getElem? hk)
      | pass hopen => exact absurd (hclosed.symm.trans hopen) Bool.false_ne_true
      | check | enter | refuse | rollBack | leave => exact Role.noConfusion

/-- In every run the count is right. -/
theorem sound_of_reach (h : machine.Reach a) : a.Sound := by
  refine h.invariant (fun a hinit => ?_) fun _ _ _ _ hsound _ hstep => hsound.step hstep
  rw [Sound, hinit.2.1, eq_comm, List.countP_eq_zero]
  intro r hr
  rw [hinit.2.2 r hr]
  exact Bool.false_ne_true

/-- Where the count is zero nobody is admitted. -/
theorem Sound.quiet (h : a.Sound) (hclosed : a.isOpen = false) (hzero : a.count = 0) :
    a.Quiet := by
  refine ⟨hclosed, fun r hr hadmitted => ?_⟩
  have hnobody := List.countP_eq_zero.mp (h.symm.trans hzero) r hr
  exact hnobody (hadmitted ▸ rfl)

/-- **Once the gate is closed and the count is zero, nobody is admitted, ever.** -/
theorem not_admitted_of_later (ha : machine.Reach a) (hclosed : a.isOpen = false)
    (hzero : a.count = 0) (h : machine.Later a b) : ∀ r ∈ b.roles, r ≠ .admitted :=
  (h.invariant ha (fun _ _ _ _ hquiet hstep => hquiet.step hstep)
    ((sound_of_reach ha).quiet hclosed hzero)).2

/-! ### Following the protocol -/

/-- One act leads from one to the other, or none is needed. -/
def Follows (a b : Admission) : Prop := b = a ∨ ∃ act, a.step act = some b

/-- The turn of one thread is an act. -/
theorem follows_turn {isOpen : Bool} {count count' k : ℕ} {roles : List Role} {r r' : Role}
    (hk : roles[k]? = some r) (h : Turn isOpen count r r' count') :
    Follows ⟨isOpen, count, roles⟩ ⟨isOpen, count', roles.set k r'⟩ := by
  cases h with
  | stay =>
    obtain ⟨hlt, rfl⟩ := List.getElem?_eq_some_iff.mp hk
    exact Or.inl (by rw [List.set_getElem_self hlt])
  | check hopen => exact Or.inr ⟨.check k, by simp [step, moves, hk, hopen]⟩
  | enter => exact Or.inr ⟨.enter k, by simp [step, moves, hk]⟩
  | pass hopen => exact Or.inr ⟨.pass k, by simp [step, moves, hk, hopen]⟩
  | refuse hclosed => exact Or.inr ⟨.refuse k, by simp [step, moves, hk, hclosed]⟩
  | rollBack => exact Or.inr ⟨.rollBack k, by simp [step, moves, hk]⟩
  | leave => exact Or.inr ⟨.leave k, by simp [step, moves, hk]⟩

/-- The gate is closed, and nobody moves. -/
theorem follows_close {isOpen : Bool} {count : ℕ} {roles : List Role} :
    Follows ⟨isOpen, count, roles⟩ ⟨false, count, roles⟩ := Or.inr ⟨.close, rfl⟩

/-- One more thread is there. -/
theorem follows_join {isOpen : Bool} {count : ℕ} {roles : List Role} :
    Follows ⟨isOpen, count, roles⟩ ⟨isOpen, count, roles ++ [.away]⟩ := Or.inr ⟨.join, rfl⟩

end Admission

end QubitConcurrent
