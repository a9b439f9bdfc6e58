import Mathlib.Data.Finset.Card
import Mathlib.Data.Finset.Range
import Mathlib.Data.List.Nodup
import Mathlib.Logic.Function.Basic
import Mathlib.Tactic.Common

/-!
# Books kept by hand

A service numbers the items it takes in and keeps them in three books: a count of the items
that are *inside*, a count of those that are *waiting*, and a list of those that can still be
*revoked*. Each book is written by whoever happens to deal with the item, in a step of its own,
and nobody ever looks whether an item was entered before it is struck out.

The books are right if every item is struck out of each of them once. Who has still to do that
is a question about the threads; here it is only a number for each item and each book
(`QubitConcurrent.Books`), one before it is struck out and zero afterwards. What the steps
may do to these numbers is `QubitConcurrent.Books.Booking`; what they keep, with the list of
what was struck out so far, is `QubitConcurrent.Books.Balanced`. From there on everything one
wants of the books is arithmetic: a count is the number of items that were entered and not
struck out, no count is lowered below zero, and all is zero once all is struck out.
-/

namespace QubitConcurrent

/-! ### How many are left -/

/-- How many of the first `n` items are not among those that are gone. -/
def tally (n : ℕ) (gone : List ℕ) : ℕ := ((Finset.range n).filter (· ∉ gone)).card

@[simp] theorem tally_zero (gone : List ℕ) : tally 0 gone = 0 := rfl

/-- One more item has come. -/
theorem tally_succ {n : ℕ} {gone : List ℕ} (h : n ∉ gone) :
    tally (n + 1) gone = tally n gone + 1 := by
  rw [tally, Finset.range_add_one, Finset.filter_insert, if_pos h, Finset.card_insert_of_notMem]
  · rfl
  · simp

/-- One of the items has gone. -/
theorem tally_append {n i : ℕ} {gone : List ℕ} (hi : i < n) (h : i ∉ gone) :
    tally n (gone ++ [i]) + 1 = tally n gone := by
  have hmem : i ∈ (Finset.range n).filter (· ∉ gone) := by simp [hi, h]
  have herase : (Finset.range n).filter (· ∉ gone ++ [i]) =
      ((Finset.range n).filter (· ∉ gone)).erase i := by
    ext j
    simp only [Finset.mem_filter, Finset.mem_range, Finset.mem_erase, List.mem_append,
      List.mem_singleton]
    tauto
  rw [tally, herase, Finset.card_erase_add_one hmem]
  rfl

/-- Where more have come and fewer have gone, more are left. -/
theorem tally_mono {m n : ℕ} {gone gone' : List ℕ} (hle : m ≤ n)
    (h : ∀ i < m, i ∉ gone → i ∉ gone') : tally m gone ≤ tally n gone' := by
  refine Finset.card_le_card fun i hi => ?_
  rw [Finset.mem_filter, Finset.mem_range] at hi ⊢
  exact ⟨hi.1.trans_le hle, h i hi.1 hi.2⟩

/-- Nobody is left exactly where everybody has gone. -/
theorem tally_eq_zero {n : ℕ} {gone : List ℕ} : tally n gone = 0 ↔ ∀ i < n, i ∈ gone := by
  simp [tally, Finset.filter_eq_empty_iff]

/-! ### The books -/

/-- What was struck out of a book. -/
inductive Entry
  /-- The item does not wait any more. -/
  | unqueued (item : ℕ)
  /-- The item is not inside any more. -/
  | left (item : ℕ)
  deriving DecidableEq, Repr

/-- The items that do not wait any more. -/
def unqueuedOf (log : List Entry) : List ℕ :=
  log.filterMap fun
    | .unqueued i => some i
    | .left _ => none

/-- The items that are not inside any more. -/
def leftOf (log : List Entry) : List ℕ :=
  log.filterMap fun
    | .left i => some i
    | .unqueued _ => none

section Log

variable (log : List Entry) (i : ℕ)

@[simp] theorem unqueuedOf_unqueued :
    unqueuedOf (log ++ [.unqueued i]) = unqueuedOf log ++ [i] := by
  simp [unqueuedOf]

@[simp] theorem unqueuedOf_left : unqueuedOf (log ++ [.left i]) = unqueuedOf log := by
  simp [unqueuedOf]

@[simp] theorem leftOf_left : leftOf (log ++ [.left i]) = leftOf log ++ [i] := by
  simp [leftOf]

@[simp] theorem leftOf_unqueued : leftOf (log ++ [.unqueued i]) = leftOf log := by
  simp [leftOf]

end Log

/-- The books: how many items were numbered, entered among those inside and among those
waiting; the two counts and the list; and, for each item, how many strokes each book is still
to get. -/
structure Books where
  /-- The items that were given a number. -/
  numbered : ℕ
  /-- The items that were counted as being inside. -/
  counted : ℕ
  /-- The items that were counted as waiting. -/
  enqueued : ℕ
  /-- The count of those inside. -/
  active : ℕ
  /-- The count of those waiting. -/
  queued : ℕ
  /-- The list of those that can be revoked. -/
  pending : List ℕ
  /-- Who is to be struck out of the first count. -/
  activeAt : ℕ → ℕ
  /-- Who is to be struck out of the second count. -/
  queuedAt : ℕ → ℕ
  /-- Who is to be struck out of the list. -/
  registeredAt : ℕ → ℕ

namespace Books

/-- The books of a service that has not started. -/
def new : Books := ⟨0, 0, 0, 0, 0, [], fun _ => 0, fun _ => 0, fun _ => 0⟩

/-- **What a step may do to the books**, with what is struck out in it. -/
inductive Booking (b : Books) : Books → List Entry → Prop
  /-- Nothing, unless the list is emptied. -/
  | keep (pending : List ℕ) (hpending : pending ⊆ b.pending) :
      Booking b { b with pending := pending } []
  /-- An item is given a number, and is to be struck out of every book once. -/
  | number :
      Booking b { b with
        numbered := b.numbered + 1
        activeAt := Function.update b.activeAt b.numbered 1
        queuedAt := Function.update b.queuedAt b.numbered 1
        registeredAt := Function.update b.registeredAt b.numbered 1 } []
  /-- It is counted as being inside. -/
  | count (hcounted : b.counted < b.numbered) :
      Booking b { b with counted := b.counted + 1, active := b.active + 1 } []
  /-- It is counted as waiting. -/
  | enqueue (henqueued : b.enqueued < b.counted) :
      Booking b { b with enqueued := b.enqueued + 1, queued := b.queued + 1 } []
  /-- It is put on the list. -/
  | register (i : ℕ) (hi : b.registeredAt i = 1) :
      Booking b { b with pending := b.pending ++ [i] } []
  /-- It is struck off the list. -/
  | unregister (i : ℕ) :
      Booking b { b with
        pending := b.pending.filter (· ≠ i)
        registeredAt := Function.update b.registeredAt i 0 } []
  /-- It is struck out of the count of those waiting. -/
  | unqueue (i : ℕ) (hi : i < b.enqueued) (hqueued : b.queuedAt i = 1)
      (hregistered : b.registeredAt i = 0) :
      Booking b { b with
        queued := b.queued - 1
        queuedAt := Function.update b.queuedAt i 0 } [.unqueued i]
  /-- It is struck out of the count of those inside. -/
  | leave (i : ℕ) (hi : i < b.counted) (hactive : b.activeAt i = 1) (hqueued : b.queuedAt i = 0) :
      Booking b { b with
        active := b.active - 1
        activeAt := Function.update b.activeAt i 0 } [.left i]

/-- **Books that are right**, given what was struck out so far. -/
structure Balanced (b : Books) (log : List Entry) : Prop where
  /-- An item waits only after it was counted as inside, and only if it has a number. -/
  order : b.enqueued ≤ b.counted ∧ b.counted ≤ b.numbered
  /-- An item is to be struck out of the first count until it is. -/
  activeAt : ∀ i, b.activeAt i = if i < b.numbered ∧ i ∉ leftOf log then 1 else 0
  /-- An item is to be struck out of the second count until it is. -/
  queuedAt : ∀ i, b.queuedAt i = if i < b.numbered ∧ i ∉ unqueuedOf log then 1 else 0
  /-- Items are struck off the list first, and out of the first count last. -/
  inward : ∀ i, b.registeredAt i ≤ b.queuedAt i ∧ b.queuedAt i ≤ b.activeAt i
  /-- What is on the list is to be struck off. -/
  pending : ∀ i ∈ b.pending, b.registeredAt i = 1
  /-- Nothing was struck out that had not been entered. -/
  bounded : (∀ i ∈ leftOf log, i < b.counted) ∧ ∀ i ∈ unqueuedOf log, i < b.enqueued
  /-- Nothing was struck out of the first count twice. -/
  leftOnce : (leftOf log).Nodup
  /-- Nothing was struck out of the second count twice. -/
  unqueuedOnce : (unqueuedOf log).Nodup
  /-- The first count is right. -/
  active : b.active = tally b.counted (leftOf log)
  /-- The second count is right. -/
  queued : b.queued = tally b.enqueued (unqueuedOf log)

namespace Balanced

variable {b b' : Books} {log notes : List Entry}

/-- Books nothing was written into are right. -/
theorem new : Balanced .new [] where
  order := ⟨le_rfl, le_rfl⟩
  activeAt i := by simp [Books.new]
  queuedAt i := by simp [Books.new]
  inward i := ⟨le_rfl, le_rfl⟩
  pending := by simp [Books.new]
  bounded := by simp [leftOf, unqueuedOf]
  leftOnce := List.nodup_nil
  unqueuedOnce := List.nodup_nil
  active := rfl
  queued := rfl

/-- Nothing is to be struck out of the first count twice. -/
theorem activeAt_le_one (h : Balanced b log) (i : ℕ) : b.activeAt i ≤ 1 := by
  rw [h.activeAt]
  split_ifs
  · exact le_rfl
  · exact Nat.zero_le _

/-- What is still to be struck out of the first count was not. -/
theorem notMem_left (h : Balanced b log) {i : ℕ} (hi : b.activeAt i = 1) : i ∉ leftOf log := by
  rw [h.activeAt] at hi
  by_contra hmem
  simp [hmem] at hi

/-- What is still to be struck out of the second count was not. -/
theorem notMem_unqueued (h : Balanced b log) {i : ℕ} (hi : b.queuedAt i = 1) :
    i ∉ unqueuedOf log := by
  rw [h.queuedAt] at hi
  by_contra hmem
  simp [hmem] at hi

/-- What has a number and is not to be struck out of the first count any more was. -/
theorem mem_left (h : Balanced b log) {i : ℕ} (hi : i < b.numbered) (hzero : b.activeAt i = 0) :
    i ∈ leftOf log := by
  rw [h.activeAt] at hzero
  by_contra hmem
  simp [hi, hmem] at hzero

/-- What has a number and is not to be struck out of the second count any more was. -/
theorem mem_unqueued (h : Balanced b log) {i : ℕ} (hi : i < b.numbered)
    (hzero : b.queuedAt i = 0) : i ∈ unqueuedOf log := by
  rw [h.queuedAt] at hzero
  by_contra hmem
  simp [hi, hmem] at hzero

/-- An item is given a number. -/
theorem number (h : Balanced b log) :
    Balanced { b with
      numbered := b.numbered + 1
      activeAt := Function.update b.activeAt b.numbered 1
      queuedAt := Function.update b.queuedAt b.numbered 1
      registeredAt := Function.update b.registeredAt b.numbered 1 } log := by
  have hleft : ∀ i ∈ leftOf log, i < b.numbered :=
    fun i hi => (h.bounded.1 i hi).trans_le h.order.2
  have hunqueued : ∀ i ∈ unqueuedOf log, i < b.numbered :=
    fun i hi => (h.bounded.2 i hi).trans_le (h.order.1.trans h.order.2)
  have hfresh : ∀ {gone : List ℕ}, (∀ i ∈ gone, i < b.numbered) → b.numbered ∉ gone :=
    fun hall hmem => absurd (hall _ hmem) (Nat.lt_irrefl _)
  -- the new item is to be struck out, and nothing changes for the others
  have hupdate : ∀ {f : ℕ → ℕ} {gone : List ℕ},
      (∀ i, f i = if i < b.numbered ∧ i ∉ gone then 1 else 0) → (∀ i ∈ gone, i < b.numbered) →
      ∀ i, Function.update f b.numbered 1 i =
        if i < b.numbered + 1 ∧ i ∉ gone then 1 else 0 := by
    intro f gone hf hall i
    rcases eq_or_ne i b.numbered with rfl | hne
    · rw [Function.update_self, if_pos ⟨Nat.lt_succ_self _, hfresh hall⟩]
    · rw [Function.update_of_ne hne, hf]
      refine if_congr (and_congr_left fun _ => ?_) rfl rfl
      omega
  refine
    { order := ⟨h.order.1, h.order.2.trans (Nat.le_succ _)⟩
      activeAt := hupdate h.activeAt hleft
      queuedAt := hupdate h.queuedAt hunqueued
      inward := fun i => ?_
      pending := fun i hi => ?_
      bounded := h.bounded
      leftOnce := h.leftOnce
      unqueuedOnce := h.unqueuedOnce
      active := h.active
      queued := h.queued }
  · rcases eq_or_ne i b.numbered with rfl | hne
    · simp
    · simpa [Function.update_of_ne hne] using h.inward i
  · rcases eq_or_ne i b.numbered with rfl | hne
    · simp
    · simpa [Function.update_of_ne hne] using h.pending i hi

/-- What is still to be struck out, after one item was. -/
theorem update_zero {f : ℕ → ℕ} {n i : ℕ} {gone : List ℕ}
    (hf : ∀ j, f j = if j < n ∧ j ∉ gone then 1 else 0) (j : ℕ) :
    Function.update f i 0 j = if j < n ∧ j ∉ gone ++ [i] then 1 else 0 := by
  rcases eq_or_ne j i with rfl | hne
  · simp
  · simp [hf, hne]

/-- An item is struck out of the count of those waiting. -/
theorem unqueue (h : Balanced b log) {i : ℕ} (hi : i < b.enqueued) (hqueued : b.queuedAt i = 1)
    (hregistered : b.registeredAt i = 0) :
    Balanced { b with
      queued := b.queued - 1
      queuedAt := Function.update b.queuedAt i 0 } (log ++ [.unqueued i]) := by
  have hnew : i ∉ unqueuedOf log := h.notMem_unqueued hqueued
  have hcount : tally b.enqueued (unqueuedOf log ++ [i]) + 1 = b.queued := by
    rw [h.queued]
    exact tally_append hi hnew
  refine
    { h with
      activeAt := by simpa using h.activeAt
      queuedAt := by simpa only [unqueuedOf_unqueued] using update_zero h.queuedAt
      inward := fun j => ?_
      bounded := ⟨by simpa using h.bounded.1, ?_⟩
      leftOnce := by simpa using h.leftOnce
      unqueuedOnce := ?_
      active := by simpa using h.active
      queued := ?_ }
  · rcases eq_or_ne j i with rfl | hne
    · simp [hregistered]
    · simpa [Function.update_of_ne hne] using h.inward j
  · intro j hj
    rw [unqueuedOf_unqueued, List.mem_append, List.mem_singleton] at hj
    rcases hj with hold | rfl
    · exact h.bounded.2 j hold
    · exact hi
  · rw [unqueuedOf_unqueued]
    exact List.nodup_append.mpr ⟨h.unqueuedOnce, List.nodup_singleton i, by
      rintro a ha b hb rfl
      exact hnew (List.mem_singleton.mp hb ▸ ha)⟩
  · simp only [unqueuedOf_unqueued]
    omega

/-- An item is struck out of the count of those inside. -/
theorem leave (h : Balanced b log) {i : ℕ} (hi : i < b.counted) (hactive : b.activeAt i = 1)
    (hqueued : b.queuedAt i = 0) :
    Balanced { b with
      active := b.active - 1
      activeAt := Function.update b.activeAt i 0 } (log ++ [.left i]) := by
  have hnew : i ∉ leftOf log := h.notMem_left hactive
  have hcount : tally b.counted (leftOf log ++ [i]) + 1 = b.active := by
    rw [h.active]
    exact tally_append hi hnew
  refine
    { h with
      activeAt := by simpa only [leftOf_left] using update_zero h.activeAt
      queuedAt := by simpa using h.queuedAt
      inward := fun j => ?_
      bounded := ⟨?_, by simpa using h.bounded.2⟩
      leftOnce := ?_
      unqueuedOnce := by simpa using h.unqueuedOnce
      active := ?_
      queued := by simpa using h.queued }
  · rcases eq_or_ne j i with rfl | hne
    · have hinward := h.inward j
      simp only [Function.update_self]
      omega
    · simpa [Function.update_of_ne hne] using h.inward j
  · intro j hj
    rw [leftOf_left, List.mem_append, List.mem_singleton] at hj
    rcases hj with hold | rfl
    · exact h.bounded.1 j hold
    · exact hi
  · rw [leftOf_left]
    exact List.nodup_append.mpr ⟨h.leftOnce, List.nodup_singleton i, by
      rintro a ha b hb rfl
      exact hnew (List.mem_singleton.mp hb ▸ ha)⟩
  · simp only [leftOf_left]
    omega

/-- **Steps keep the books right.** -/
theorem booking (h : Balanced b log) (hb : Booking b b' notes) : Balanced b' (log ++ notes) := by
  cases hb with
  | keep pending hpending =>
    rw [List.append_nil]
    exact { h with pending := fun i hi => h.pending i (hpending hi) }
  | number =>
    rw [List.append_nil]
    exact h.number
  | count hcounted =>
    rw [List.append_nil]
    have hnew : b.counted ∉ leftOf log := fun hmem => (h.bounded.1 _ hmem).false
    refine
      { h with
        order := ⟨h.order.1.trans (Nat.le_succ _), hcounted⟩
        bounded := ⟨fun i hi => Nat.lt_succ_of_lt (h.bounded.1 i hi), h.bounded.2⟩
        active := ?_ }
    rw [tally_succ hnew, ← h.active]
  | enqueue henqueued =>
    rw [List.append_nil]
    have hnew : b.enqueued ∉ unqueuedOf log := fun hmem => (h.bounded.2 _ hmem).false
    refine
      { h with
        order := ⟨henqueued, h.order.2⟩
        bounded := ⟨h.bounded.1, fun i hi => Nat.lt_succ_of_lt (h.bounded.2 i hi)⟩
        queued := ?_ }
    rw [tally_succ hnew, ← h.queued]
  | register i hi =>
    rw [List.append_nil]
    refine { h with pending := fun j hj => ?_ }
    rcases List.mem_append.mp hj with hold | hnew
    · exact h.pending j hold
    · rw [List.mem_singleton.mp hnew]
      exact hi
  | unregister i =>
    rw [List.append_nil]
    refine { h with inward := fun j => ?_, pending := fun j hj => ?_ }
    · rcases eq_or_ne j i with rfl | hne
      · simpa using (h.inward j).2
      · simpa [Function.update_of_ne hne] using h.inward j
    · obtain ⟨hmem, hne⟩ := List.mem_filter.mp hj
      have hne' : j ≠ i := by simpa using hne
      show Function.update b.registeredAt i 0 j = 1
      rw [Function.update_of_ne hne']
      exact h.pending j hmem
  | unqueue i hi hqueued hregistered => exact h.unqueue hi hqueued hregistered
  | leave i hi hactive hqueued => exact h.leave hi hactive hqueued

/-- A count is not zero when something is struck out of it. -/
theorem pos_of_booking (h : Balanced b log) (hb : Booking b b' notes) :
    (∀ i, .unqueued i ∈ notes → 0 < b.queued) ∧ ∀ i, .left i ∈ notes → 0 < b.active := by
  have hpos : ∀ {n i : ℕ} {gone : List ℕ}, i < n → i ∉ gone → 0 < tally n gone := by
    intro n i gone hi hnew
    rw [Nat.pos_iff_ne_zero, Ne, tally_eq_zero]
    exact fun hall => hnew (hall i hi)
  cases hb with
  | unqueue i hi hqueued hregistered =>
    refine ⟨fun _ _ => ?_, by simp⟩
    rw [h.queued]
    exact hpos hi (h.notMem_unqueued hqueued)
  | leave i hi hactive hqueued =>
    refine ⟨by simp, fun _ _ => ?_⟩
    rw [h.active]
    exact hpos hi (h.notMem_left hactive)
  | _ => simp

/-- Not more are waiting than are inside. -/
theorem queued_le_active (h : Balanced b log) : b.queued ≤ b.active := by
  rw [h.queued, h.active]
  refine tally_mono h.order.1 fun i hi hnew hmem => ?_
  have hlt : i < b.numbered := hi.trans_le (h.order.1.trans h.order.2)
  have hone : b.queuedAt i = 1 := by rw [h.queuedAt, if_pos ⟨hlt, hnew⟩]
  have hzero : b.activeAt i = 0 := by rw [h.activeAt, if_neg fun hand => hand.2 hmem]
  have hle := (h.inward i).2
  omega

/-- What is on the list was not struck out anywhere. -/
theorem of_mem_pending (h : Balanced b log) {i : ℕ} (hi : i ∈ b.pending) :
    i ∉ unqueuedOf log ∧ i ∉ leftOf log := by
  have hone := h.pending i hi
  have hinward := h.inward i
  have hqueued := h.queuedAt i
  have hactive := h.activeAt i
  refine ⟨fun hmem => ?_, fun hmem => ?_⟩
  · rw [if_neg fun hand => hand.2 hmem] at hqueued
    omega
  · rw [if_neg fun hand => hand.2 hmem] at hactive
    omega

/-- **Where nothing is to be struck out any more, the books are empty.** -/
theorem empty (h : Balanced b log) (hall : ∀ i < b.numbered, b.activeAt i = 0) :
    b.active = 0 ∧ b.queued = 0 ∧ b.pending = [] := by
  have hleft : ∀ i < b.counted, i ∈ leftOf log := by
    intro i hi
    have hnumbered : i < b.numbered := hi.trans_le h.order.2
    exact h.mem_left hnumbered (hall i hnumbered)
  have hactive : b.active = 0 := h.active.trans (tally_eq_zero.mpr hleft)
  refine ⟨hactive, Nat.le_zero.mp (hactive ▸ h.queued_le_active), ?_⟩
  rw [List.eq_nil_iff_forall_not_mem]
  intro i hi
  have hone := h.pending i hi
  have hinward := h.inward i
  by_cases hnumbered : i < b.numbered
  · have hzero := hall i hnumbered
    omega
  · have hactiveAt := h.activeAt i
    rw [if_neg fun hand => hnumbered hand.1] at hactiveAt
    omega

end Balanced

end Books

end QubitConcurrent
