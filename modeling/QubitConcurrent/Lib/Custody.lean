import QubitConcurrent.Lib.Lists
import Mathlib.Tactic.Common

/-!
# Items in many hands

Items are accepted, put into queues, taken out again by whoever comes first, and finished.
One counter is kept of them: it is raised before an item is accepted, by whoever reserves a
slot, and lowered by whoever accounts for the item, before it is finished. Between the two
operations an item is in the queues or in somebody's hands.

What each party has is its `QubitConcurrent.Custody.Load`, and what one party does in one step
a `QubitConcurrent.Custody.Move`. Nothing is lost and nothing is doubled by a move
(`QubitConcurrent.Custody.Balanced.move`): so the counter says how many items are not
accounted for, and how many slots are reserved besides, and every item is finished at most
once.
-/

namespace QubitConcurrent

namespace Custody

variable {ι : Type}

/-- What a party has. -/
structure Load (ι : Type) where
  /-- The slots it has reserved, for items that are not accepted yet. -/
  reserved : ℕ
  /-- The items it has brought, as far as they were accepted. -/
  accepted : List ι
  /-- The items in its hands that the counter still counts. -/
  hand : List ι
  /-- The items in its hands that it has accounted for, and not finished. -/
  owned : List ι

/-- Nothing. -/
def Load.none : Load ι := ⟨0, [], [], []⟩

/-- What the parties share. -/
structure Store (ι : Type) where
  /-- The largest value the counter may have. -/
  capacity : Option ℕ
  /-- The counter. -/
  count : ℕ
  /-- The items in the queues. -/
  queued : List ι
  /-- The items that are finished. -/
  done : List ι

/-- What one party does in one step. -/
inductive Move (s s' : Store ι) (l l' : Load ι) : Prop
  /-- Nothing. -/
  | aside (hs : s' = s) (hl : l' = l)
  /-- It reserves a slot, where there is room. -/
  | reserve (hroom : ∀ n ∈ s.capacity, s.count < n) (hs : s' = { s with count := s.count + 1 })
      (hl : l' = { l with reserved := l.reserved + 1 })
  /-- It gives a slot back. -/
  | unreserve (hs : s' = { s with count := s.count - 1 })
      (hl : l = { l' with reserved := l'.reserved + 1 })
  /-- Its item is accepted, into a slot it has reserved. -/
  | accept (i : ι) (hs : s' = s) (hreserved : l.reserved = l'.reserved + 1)
      (haccepted : l'.accepted = i :: l.accepted) (hhand : l'.hand = i :: l.hand)
      (howned : l'.owned = l.owned)
  /-- It puts items into the queues. -/
  | push (items : List ι) (hqueued : s'.queued.Perm (s.queued ++ items))
      (hhand : l.hand.Perm (l'.hand ++ items))
      (hs : s' = { s with queued := s'.queued }) (hl : l' = { l with hand := l'.hand })
  /-- It takes items out of the queues. -/
  | claim (items : List ι) (hqueued : s.queued.Perm (s'.queued ++ items))
      (hhand : l'.hand.Perm (l.hand ++ items))
      (hs : s' = { s with queued := s'.queued }) (hl : l' = { l with hand := l'.hand })
  /-- It accounts for items. -/
  | account (items : List ι) (hcount : s'.count = s.count - items.length)
      (hhand : l.hand.Perm (l'.hand ++ items)) (howned : l'.owned.Perm (l.owned ++ items))
      (hs : s' = { s with count := s'.count })
      (hl : l' = { l with hand := l'.hand, owned := l'.owned })
  /-- It finishes an item. -/
  | finish (i : ι) (hdone : s'.done.Perm (s.done ++ [i])) (howned : l.owned.Perm (l'.owned ++ [i]))
      (hs : s' = { s with done := s'.done }) (hl : l' = { l with owned := l'.owned })

section Totals

variable [DecidableEq ι] (loads : List (Load ι))

/-- How often all the parties together have an item in what `f` says of them. -/
def total (f : Load ι → List ι) (i : ι) : ℕ := (loads.map fun l => (f l).count i).sum

/-- How many items all the parties together have in what `f` says of them. -/
def size (f : Load ι → List ι) : ℕ := (loads.map fun l => (f l).length).sum

/-- How many slots are reserved. -/
def reserved : ℕ := (loads.map Load.reserved).sum

variable {loads} {k : ℕ} {l : Load ι}

/-- Where one party changes, a total changes by what that party has. -/
theorem total_set (hk : loads[k]? = some l) (l' : Load ι) (f : Load ι → List ι) (i : ι) :
    ∃ n, total loads f i = n + (f l).count i ∧ total (loads.set k l') f i = n + (f l').count i :=
  sum_map_set _ hk l'

omit [DecidableEq ι] in
theorem size_set (hk : loads[k]? = some l) (l' : Load ι) (f : Load ι → List ι) :
    ∃ n, size loads f = n + (f l).length ∧ size (loads.set k l') f = n + (f l').length :=
  sum_map_set _ hk l'

omit [DecidableEq ι] in
theorem reserved_set (hk : loads[k]? = some l) (l' : Load ι) :
    ∃ n, reserved loads = n + l.reserved ∧ reserved (loads.set k l') = n + l'.reserved :=
  sum_map_set _ hk l'

end Totals

/-! ### The books -/

section Balanced

variable [DecidableEq ι]

/-- **Every item is in one place, and the counter counts those not accounted for.** -/
structure Balanced (s : Store ι) (loads : List (Load ι)) : Prop where
  /-- What was accepted is in the queues, in somebody's hands, or finished. -/
  conserved : ∀ i, s.queued.count i + total loads Load.hand i + total loads Load.owned i +
    s.done.count i = total loads Load.accepted i
  /-- The counter counts what is in the queues and in the hands, and the slots. -/
  number : s.count = s.queued.length + size loads Load.hand + reserved loads
  /-- The counter stays within the capacity. -/
  bounded : ∀ n ∈ s.capacity, s.count ≤ n

variable {s s' : Store ι} {loads : List (Load ι)} {k : ℕ} {l l' : Load ι}

/-- A move moves items, and makes or loses none. -/
theorem Move.conserved (hm : Move s s' l l') (i : ι) :
    s'.queued.count i + l'.hand.count i + l'.owned.count i + s'.done.count i +
        l.accepted.count i =
      s.queued.count i + l.hand.count i + l.owned.count i + s.done.count i +
        l'.accepted.count i := by
  cases hm with
  | aside hs hl => rw [hs, hl]
  | reserve hroom hs hl => rw [hs, hl]
  | unreserve hs hl => rw [hs, hl]
  | accept j hs hreserved haccepted hhand howned =>
    rw [hs, haccepted, hhand, howned, List.count_cons, List.count_cons]
    omega
  | push items hqueued hhand hs hl | claim items hqueued hhand hs hl =>
    have hqueued := hqueued.count_eq i
    have hhand := hhand.count_eq i
    rw [List.count_append] at hqueued hhand
    rw [hs, hl]
    simp only
    omega
  | account items hcount hhand howned hs hl =>
    have hhand := hhand.count_eq i
    have howned := howned.count_eq i
    rw [List.count_append] at hhand howned
    rw [hs, hl]
    simp only
    omega
  | finish j hdone howned hs hl =>
    have hdone := hdone.count_eq i
    have howned := howned.count_eq i
    rw [List.count_append] at hdone howned
    rw [hs, hl]
    simp only
    omega

omit [DecidableEq ι] in
/-- A move changes the counter by as much as what it counts, unless it would go below zero. -/
theorem Move.number (hm : Move s s' l l') (hle : l.hand.length + l.reserved ≤ s.count) :
    s'.count + s.queued.length + l.hand.length + l.reserved =
      s.count + s'.queued.length + l'.hand.length + l'.reserved := by
  cases hm with
  | aside hs hl => rw [hs, hl]
  | reserve hroom hs hl =>
    rw [hs, hl]
    simp only
    omega
  | unreserve hs hl =>
    rw [hl] at hle ⊢
    rw [hs]
    simp only at hle ⊢
    omega
  | accept j hs hreserved haccepted hhand howned =>
    rw [hs, hhand, hreserved, List.length_cons]
    omega
  | push items hqueued hhand hs hl | claim items hqueued hhand hs hl =>
    have hqueued := hqueued.length_eq
    have hhand := hhand.length_eq
    rw [List.length_append] at hqueued hhand
    rw [hs, hl]
    simp only
    omega
  | account items hcount hhand howned hs hl =>
    have hhand := hhand.length_eq
    rw [List.length_append] at hhand
    rw [hcount, hs, hl]
    simp only
    omega
  | finish j hdone howned hs hl => rw [hs, hl]

omit [DecidableEq ι] in
/-- A move does not raise the counter above the capacity, nor change the capacity. -/
theorem Move.bounded (hm : Move s s' l l') (h : ∀ n ∈ s.capacity, s.count ≤ n) :
    ∀ n ∈ s'.capacity, s'.count ≤ n := by
  intro n hn
  cases hm with
  | aside hs hl => exact hs ▸ h n (hs ▸ hn)
  | reserve hroom hs hl =>
    rw [hs] at hn ⊢
    exact hroom n hn
  | unreserve hs hl =>
    rw [hs] at hn ⊢
    exact (Nat.sub_le ..).trans (h n hn)
  | accept j hs => exact hs ▸ h n (hs ▸ hn)
  | push items hqueued hhand hs | claim items hqueued hhand hs | finish j hdone howned hs =>
    rw [hs] at hn ⊢
    exact h n hn
  | account items hcount hhand howned hs hl =>
    rw [hs] at hn
    rw [hcount]
    exact (Nat.sub_le ..).trans (h n hn)

omit [DecidableEq ι] in
/-- The capacity stays as it is. -/
theorem Move.capacity_eq (hm : Move s s' l l') : s'.capacity = s.capacity := by
  cases hm with
  | aside hs | reserve _ hs | unreserve hs | accept _ hs | push _ _ _ hs | claim _ _ _ hs
  | account _ _ _ _ hs | finish _ _ _ hs => rw [hs]

/-- What one party has in its hands and has reserved is counted. -/
theorem Balanced.le_count (h : Balanced s loads) (hk : loads[k]? = some l) :
    l.hand.length + l.reserved ≤ s.count := by
  obtain ⟨n, hhand, -⟩ := size_set hk l Load.hand
  obtain ⟨m, hreserved, -⟩ := reserved_set hk l
  have := h.number
  omega

/-- **A move keeps the books.** -/
theorem Balanced.move (h : Balanced s loads) (hk : loads[k]? = some l) (hm : Move s s' l l') :
    Balanced s' (loads.set k l') where
  conserved i := by
    obtain ⟨a, ha, ha'⟩ := total_set hk l' Load.hand i
    obtain ⟨b, hb, hb'⟩ := total_set hk l' Load.owned i
    obtain ⟨c, hc, hc'⟩ := total_set hk l' Load.accepted i
    have := h.conserved i
    have := hm.conserved i
    omega
  number := by
    obtain ⟨n, hhand, hhand'⟩ := size_set hk l' Load.hand
    obtain ⟨m, hreserved, hreserved'⟩ := reserved_set hk l'
    have := h.number
    have := hm.number (h.le_count hk)
    omega
  bounded := hm.bounded h.bounded

/-- Somebody comes who has nothing. -/
theorem Balanced.join (h : Balanced s loads) : Balanced s (loads ++ [.none]) := by
  have htotal : ∀ (f : Load ι → List ι) i, f .none = [] →
      total (loads ++ [.none]) f i = total loads f i := by
    intro f i hf
    simp [total, hf]
  refine ⟨fun i => ?_, ?_, h.bounded⟩
  · rw [htotal _ _ rfl, htotal _ _ rfl, htotal _ _ rfl]
    exact h.conserved i
  · rw [h.number]
    simp [size, reserved, Load.none]

/-- At the beginning nobody has anything. -/
theorem Balanced.start (hcount : s.count = 0) (hqueued : s.queued = []) (hdone : s.done = [])
    (n : ℕ) : Balanced s (List.replicate n .none) := by
  constructor
  case conserved =>
    intro i
    simp [hqueued, hdone, total, Load.none]
  case number => simp [hcount, hqueued, size, reserved, Load.none]
  case bounded =>
    intro m hm
    rw [hcount]
    exact Nat.zero_le m

/-! ### What the books tell -/

/-- How often an item is in the queues, or in somebody's hands and still counted. -/
def outstanding (s : Store ι) (loads : List (Load ι)) (i : ι) : ℕ :=
  s.queued.count i + total loads Load.hand i

/-- Whether an item is accounted for: it is finished, or in the hands of somebody who has
accounted for it. -/
def Accounted (s : Store ι) (loads : List (Load ι)) (i : ι) : Prop :=
  0 < total loads Load.owned i + s.done.count i

instance (s : Store ι) (loads : List (Load ι)) (i : ι) : Decidable (Accounted s loads i) :=
  inferInstanceAs (Decidable (0 < _))

/-- What all the parties together have had accepted. -/
def allAccepted (loads : List (Load ι)) : List ι := loads.flatMap Load.accepted

/-- Nothing more is outstanding when somebody comes who has nothing. -/
theorem outstanding_join (s : Store ι) (loads : List (Load ι)) (i : ι) :
    outstanding s (loads ++ [.none]) i = outstanding s loads i := by
  simp [outstanding, total, Load.none]

/-- A total is the number of times an item is in what all the parties have. -/
theorem total_eq_count (f : Load ι → List ι) (i : ι) :
    total loads f i = (loads.flatMap f).count i := by
  rw [total, List.count_flatMap]
  rfl

omit [DecidableEq ι] in
/-- No item was accepted twice, if every party brings items of its own. -/
theorem allAccepted_nodup (bringer : ι → ℕ) (hnodup : ∀ l ∈ loads, l.accepted.Nodup)
    (hown : ∀ k l, loads[k]? = some l → ∀ i ∈ l.accepted, bringer i = k) :
    (allAccepted loads).Nodup := by
  refine List.nodup_flatMap.mpr ⟨hnodup, List.pairwise_iff_getElem.mpr ?_⟩
  intro j k hj hk hlt i hij hik
  have := hown j _ (List.getElem?_eq_getElem hj) i hij
  have := hown k _ (List.getElem?_eq_getElem hk) i hik
  omega

/-- **No item is accounted for twice**, if none was accepted twice. -/
theorem Balanced.once (h : Balanced s loads) (hnodup : (allAccepted loads).Nodup) (i : ι) :
    outstanding s loads i + (total loads Load.owned i + s.done.count i) ≤ 1 := by
  have haccepted : total loads Load.accepted i ≤ 1 := by
    rw [total_eq_count]
    exact List.nodup_iff_count_le_one.mp hnodup i
  have := h.conserved i
  unfold outstanding
  omega

/-- **The counter counts the accepted items that are not accounted for**, and the slots. -/
theorem Balanced.count_eq (h : Balanced s loads) (hnodup : (allAccepted loads).Nodup) :
    s.count = ((allAccepted loads).filter fun i => ¬Accounted s loads i).length +
      reserved loads := by
  have hperm : ((allAccepted loads).filter fun i => ¬Accounted s loads i).Perm
      (s.queued ++ loads.flatMap Load.hand) := by
    rw [List.perm_iff_count]
    intro i
    have hconserved := h.conserved i
    have honce := h.once hnodup i
    unfold outstanding at honce
    rw [List.count_append, ← total_eq_count]
    by_cases hi : Accounted s loads i
    · have hzero : ((allAccepted loads).filter fun i => ¬Accounted s loads i).count i = 0 := by
        rw [List.count_eq_zero]
        intro hmem
        exact of_decide_eq_true (List.mem_filter.mp hmem).2 hi
      unfold Accounted at hi
      omega
    · rw [List.count_filter (by simpa using hi), allAccepted, ← total_eq_count]
      unfold Accounted at hi
      omega
  rw [h.number, hperm.length_eq, List.length_append, List.length_flatMap]
  rfl

/-- Where the counter is zero nothing is outstanding. -/
theorem Balanced.outstanding_eq_zero (h : Balanced s loads) (hzero : s.count = 0) (i : ι) :
    outstanding s loads i = 0 := by
  have hnumber := h.number
  have hqueued : s.queued = [] := List.length_eq_zero_iff.mp (by omega)
  have hhand : loads.flatMap Load.hand = [] := by
    have hsize : (loads.map fun l => l.hand.length).sum = 0 := by
      have : size loads Load.hand = 0 := by omega
      exact this
    exact List.length_eq_zero_iff.mp (by rw [List.length_flatMap]; exact hsize)
  rw [outstanding, total_eq_count, hqueued, hhand]
  rfl

/-- A move by which nothing is accepted leaves no more outstanding than there was. -/
theorem outstanding_move_le (hk : loads[k]? = some l) (hm : Move s s' l l')
    (haccepted : l'.accepted = l.accepted) (i : ι) :
    outstanding s' (loads.set k l') i ≤ outstanding s loads i := by
  obtain ⟨a, ha, ha'⟩ := total_set hk l' Load.hand i
  have hle : s'.queued.count i + l'.hand.count i ≤ s.queued.count i + l.hand.count i := by
    cases hm with
    | aside hs hl | reserve hroom hs hl | unreserve hs hl => rw [hs, hl]
    | accept j hs hreserved hnew =>
      have hlength := congrArg List.length (hnew.symm.trans haccepted)
      rw [List.length_cons] at hlength
      omega
    | push items hqueued hhand | claim items hqueued hhand =>
      have hqueued := hqueued.count_eq i
      have hhand := hhand.count_eq i
      rw [List.count_append] at hqueued hhand
      omega
    | account items hcount hhand howned hs hl =>
      have hhand := hhand.count_eq i
      rw [List.count_append] at hhand
      rw [hs]
      simp only
      omega
    | finish j hdone howned hs hl => rw [hs, hl]
  unfold outstanding
  omega

/-- Where nothing is in the queues or in anybody's hands, all that was accepted is finished. -/
theorem Balanced.settled (h : Balanced s loads) {i : ι} (hout : outstanding s loads i = 0)
    (howned : ∀ l ∈ loads, l.owned = []) : s.done.count i = total loads Load.accepted i := by
  have hzero : total loads Load.owned i = 0 := by
    rw [total_eq_count, List.flatMap_eq_nil_iff.mpr howned]
    rfl
  have := h.conserved i
  unfold outstanding at hout
  omega

end Balanced

end Custody

end QubitConcurrent
