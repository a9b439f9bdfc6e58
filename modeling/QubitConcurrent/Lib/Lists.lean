import Mathlib.Algebra.Order.Ring.Nat
import Mathlib.Data.List.Basic
import Mathlib.Data.List.Nodup
import Mathlib.Data.List.Perm.Subperm
import Mathlib.Logic.Function.Basic

/-!
# Lists of threads and lists of queues

The threads of a run are kept in a list, and a step moves one of them. Written
as an update at a position that is awkward to count over; written as a
replacement `l₁ ++ a :: l₂ ↦ l₁ ++ b :: l₂` every count, every membership and
every concatenation is computed by the simp set. The first section passes from
the one to the other.

The second section is about such counts and sums, and the third about probing a list
of queues in cyclic order from an arbitrary start: `n` probes visit each of `n`
places.
-/

namespace QubitConcurrent

/-! ### Replacing one element -/

section Replace

variable {α : Type}

/-- A list read at a position splits there. -/
theorem exists_split_of_getElem? {l : List α} {k : ℕ} {a : α} (h : l[k]? = some a) :
    ∃ l₁ l₂, l = l₁ ++ a :: l₂ ∧ l₁.length = k := by
  obtain ⟨hk, rfl⟩ := List.getElem?_eq_some_iff.mp h
  refine ⟨l.take k, l.drop (k + 1), ?_, List.length_take_of_le (Nat.le_of_lt hk)⟩
  rw [← List.drop_eq_getElem_cons hk, List.take_append_drop]

/-- Modifying a split list where it splits replaces the element there. -/
@[simp] theorem modify_split (l₁ l₂ : List α) (a : α) (f : α → α) :
    (l₁ ++ a :: l₂).modify l₁.length f = l₁ ++ f a :: l₂ := by
  induction l₁ with
  | nil => rfl
  | cons b l₁ ih => simpa using ih

/-- Where a list with one more element at its end splits: at the new element, or
before it. -/
theorem append_singleton_split {l l₁ l₂ : List α} {a b : α} (h : l ++ [b] = l₁ ++ a :: l₂) :
    (l = l₁ ∧ b = a) ∨ ∃ l₃, l₂ = l₃ ++ [b] ∧ l = l₁ ++ a :: l₃ := by
  rcases List.eq_nil_or_concat l₂ with rfl | ⟨l₃, c, rfl⟩
  · obtain ⟨hl, hb⟩ := List.append_inj' h rfl
    exact Or.inl ⟨hl, (List.cons.inj hb).1⟩
  · rw [List.concat_eq_append, ← List.cons_append, ← List.append_assoc] at h
    obtain ⟨hl, hb⟩ := List.append_inj' h rfl
    obtain rfl := (List.cons.inj hb).1
    exact Or.inr ⟨l₃, List.concat_eq_append, hl⟩

/-- A property of the elements, where one of them is replaced. -/
theorem any_getElem?_set {l : List α} {k : ℕ} {a : α} (h : l[k]? = some a) (p : α → Bool) (b : α) :
    (fun j : ℕ => ((l.set k b)[j]?).any p) =
      Function.update (fun j : ℕ => (l[j]?).any p) k (p b) := by
  obtain ⟨hlt, -⟩ := List.getElem?_eq_some_iff.mp h
  funext j
  rcases eq_or_ne j k with rfl | hne
  · simp [hlt]
  · rw [Function.update_of_ne hne, List.getElem?_set_ne hne.symm]

/-- An element is replaced by one that has the property as it had. -/
theorem any_getElem?_set_same {l : List α} {k : ℕ} {a : α} (h : l[k]? = some a) {p : α → Bool}
    {b : α} (hb : p b = p a) :
    (fun j : ℕ => ((l.set k b)[j]?).any p) = fun j => (l[j]?).any p := by
  rw [any_getElem?_set h, hb, Function.update_eq_self_iff, h, Option.any_some]

/-- An element is appended, and elsewhere the list is as it was. -/
theorem getElem?_concat_of_ne {l : List α} {a : α} {k : ℕ} (hne : k ≠ l.length) :
    (l ++ [a])[k]? = l[k]? := by
  rcases lt_or_gt_of_ne hne with hlt | hgt
  · exact List.getElem?_append_left hlt
  · have hpast : (l ++ [a]).length ≤ k := by
      rw [List.length_append, List.length_singleton]
      exact hgt
    rw [List.getElem?_eq_none hpast, List.getElem?_eq_none hgt.le]

/-- An element is appended, and what there was is still there. -/
theorem getElem?_concat_of_some {l : List α} {b : α} {k : ℕ} (h : l[k]? = some b) (a : α) :
    (l ++ [a])[k]? = some b :=
  (List.getElem?_append_left (List.getElem?_eq_some_iff.mp h).1).trans h

/-- What is found after an element is appended was there, or is that element. -/
theorem getElem?_concat_cases {l : List α} {a b : α} {k : ℕ} (h : (l ++ [a])[k]? = some b) :
    l[k]? = some b ∨ (k = l.length ∧ b = a) := by
  rcases eq_or_ne k l.length with rfl | hne
  · rw [List.getElem?_concat_length] at h
    exact Or.inr ⟨rfl, (Option.some.inj h).symm⟩
  · rw [getElem?_concat_of_ne hne] at h
    exact Or.inl h

/-- The element that replaces another is found in its place. -/
theorem getElem?_set_of_some {l : List α} {k : ℕ} {a : α} (h : l[k]? = some a) (b : α) :
    (l.set k b)[k]? = some b :=
  List.getElem?_set_self (List.getElem?_eq_some_iff.mp h).1

/-- What is found after an element is replaced is the new element, or was there elsewhere. -/
theorem getElem?_set_cases {l : List α} {k j : ℕ} {a b c : α} (h : l[k]? = some a)
    (hj : (l.set k b)[j]? = some c) : (j = k ∧ c = b) ∨ (k ≠ j ∧ l[j]? = some c) := by
  rcases eq_or_ne k j with rfl | hne
  · exact Or.inl ⟨rfl, Option.some.inj (hj.symm.trans (getElem?_set_of_some h b))⟩
  · exact Or.inr ⟨hne, (List.getElem?_set_ne hne).symm.trans hj⟩

/-- What was there before an element is replaced is that element, or is still there. -/
theorem getElem?_set_kept {l : List α} {k j : ℕ} {a c : α} (h : l[k]? = some a)
    (hj : l[j]? = some c) (b : α) : (j = k ∧ c = a) ∨ (k ≠ j ∧ (l.set k b)[j]? = some c) := by
  rcases eq_or_ne k j with rfl | hne
  · exact Or.inl ⟨rfl, Option.some.inj (hj.symm.trans h)⟩
  · exact Or.inr ⟨hne, (List.getElem?_set_ne hne).trans hj⟩

/-- An element is appended that does not have the property. -/
theorem any_getElem?_append {l : List α} {p : α → Bool} {b : α} (hb : p b = false) :
    (fun j : ℕ => ((l ++ [b])[j]?).any p) = fun j => (l[j]?).any p := by
  funext j
  rcases eq_or_ne j l.length with rfl | hne
  · simp [hb]
  · rw [getElem?_concat_of_ne hne]

end Replace

/-! ### Counting over threads -/

/-- If each thread holds an element no more often than it holds it otherwise, so do
all of them together. -/
theorem count_flatMap_le {α β : Type} [DecidableEq β] {f g : α → List β} {b : β} {l : List α}
    (h : ∀ a ∈ l, (f a).count b ≤ (g a).count b) :
    (l.flatMap f).count b ≤ (l.flatMap g).count b := by
  induction l with
  | nil => exact Nat.le_refl _
  | cons a l ih =>
    rw [List.flatMap_cons, List.flatMap_cons, List.count_append, List.count_append]
    exact Nat.add_le_add (h a (List.mem_cons_self ..))
      (ih fun x hx => h x (List.mem_cons_of_mem _ hx))

/-- A sum of which every term grows by one at most, where `p` holds. -/
theorem sum_map_le_add_countP {α : Type} {f g : α → ℕ} {p : α → Bool}
    (h : ∀ a, g a ≤ f a + (p a).toNat) (l : List α) :
    (l.map g).sum ≤ (l.map f).sum + l.countP p := by
  induction l with
  | nil => exact Nat.le_refl _
  | cons a l ih =>
    have ha := h a
    rw [List.map_cons, List.map_cons, List.sum_cons, List.sum_cons, List.countP_cons]
    cases hp : p a <;> simp only [hp, Bool.toNat_true, Bool.toNat_false] at ha <;>
      simp only [if_true, if_false, Bool.false_eq_true] <;> omega

/-- A sum grows with its terms, by a bound for each of them. -/
theorem sum_map_le_of_forall₂ {α : Type} {r : α → α → Prop} {f : α → ℕ} {b : ℕ}
    (h : ∀ a a', r a a' → f a' ≤ f a + b) {l l' : List α} (hl : List.Forall₂ r l l') :
    (l'.map f).sum ≤ (l.map f).sum + b * l.length := by
  induction hl with
  | nil => exact Nat.le_refl _
  | @cons a a' l l' hhead _ ih =>
    have hterm := h a a' hhead
    simp only [List.map_cons, List.sum_cons, List.length_cons, Nat.mul_add, Nat.mul_one]
    omega

/-- Replacing one thread changes a sum over the threads by what it contributes. -/
theorem sum_map_set {α : Type} (f : α → ℕ) {l : List α} {k : ℕ} {a : α} (h : l[k]? = some a)
    (b : α) : ∃ n, (l.map f).sum = n + f a ∧ ((l.set k b).map f).sum = n + f b := by
  obtain ⟨l₁, l₂, rfl, rfl⟩ := exists_split_of_getElem? h
  refine ⟨(l₁.map f).sum + (l₂.map f).sum, ?_, ?_⟩
  · simp only [List.map_append, List.map_cons, List.sum_append, List.sum_cons]
    omega
  · simp only [List.set_append_right _ _ (Nat.le_refl _), Nat.sub_self, List.set_cons_zero,
      List.map_append, List.map_cons, List.sum_append, List.sum_cons]
    omega

/-- Replacing one thread changes a count over the threads by whether it is counted. -/
theorem countP_set_toNat {α : Type} (p : α → Bool) {l : List α} {k : ℕ} {a : α}
    (h : l[k]? = some a) (b : α) :
    ∃ n, l.countP p = n + (p a).toNat ∧ (l.set k b).countP p = n + (p b).toNat := by
  have hcountP : ∀ l : List α, l.countP p = (l.map fun a => (p a).toNat).sum := by
    intro l
    induction l with
    | nil => rfl
    | cons a l ih =>
      rw [List.countP_cons, List.map_cons, List.sum_cons, ih]
      cases p a with
      | true => exact Nat.add_comm ..
      | false => exact (Nat.zero_add _).symm
  rw [hcountP, hcountP]
  exact sum_map_set _ h b

/-- Counting over the positions of a list is counting over the list. -/
theorem countP_range {α : Type} (p : α → Bool) (l : List α) :
    (List.range l.length).countP (fun i => (l[i]?).any p) = l.countP p := by
  induction l with
  | nil => rfl
  | cons a l ih =>
    rw [List.length_cons, List.range_succ_eq_map, List.countP_cons, List.countP_cons,
      List.countP_map, ← ih]
    rfl

/-- **Different positions with a property are no more than there are elements with it.** -/
theorem length_le_countP {α : Type} {p : α → Bool} {l : List α} {is : List ℕ} (hnodup : is.Nodup)
    (h : ∀ i ∈ is, (l[i]?).any p = true) : is.length ≤ l.countP p := by
  have hsubset : is ⊆ (List.range l.length).filter fun i => (l[i]?).any p := by
    intro i hi
    refine List.mem_filter.mpr ⟨List.mem_range.mpr ?_, h i hi⟩
    by_contra hge
    have hnone := h i hi
    rw [List.getElem?_eq_none (by omega)] at hnone
    exact Bool.false_ne_true hnone
  calc is.length
      ≤ ((List.range l.length).filter fun i => (l[i]?).any p).length :=
        (List.subperm_of_subset hnodup hsubset).length_le
    _ = (List.range l.length).countP fun i => (l[i]?).any p := List.countP_eq_length_filter.symm
    _ = l.countP p := countP_range p l

/-- Positions of elements with a property are among the positions one knows of. -/
theorem countP_le_countP_of_mem {α : Type} {p : α → Bool} {l : List α} {is : List ℕ}
    {f : ℕ → Bool} (h : ∀ i a, l[i]? = some a → p a = true → i ∈ is ∧ f i = true) :
    l.countP p ≤ is.countP f := by
  have hsubset : ((List.range l.length).filter fun i => (l[i]?).any p) ⊆ is.filter f := by
    intro i hi
    obtain ⟨a, ha, hp⟩ := (Option.any_eq_true ..).mp (List.mem_filter.mp hi).2
    exact List.mem_filter.mpr (h i a ha hp)
  calc l.countP p
      = (List.range l.length).countP fun i => (l[i]?).any p := (countP_range p l).symm
    _ = ((List.range l.length).filter fun i => (l[i]?).any p).length := List.countP_eq_length_filter
    _ ≤ (is.filter f).length :=
        (List.subperm_of_subset (List.nodup_range.filter _) hsubset).length_le
    _ = is.countP f := List.countP_eq_length_filter.symm

/-- An element with a property stays, or is replaced by one that has it too. -/
theorem exists_mem_set {α : Type} {p : α → Bool} {l : List α} {k : ℕ} {a b : α}
    (hk : l[k]? = some a) (hp : p a = true → p b = true) (h : ∃ x ∈ l, p x = true) :
    ∃ x ∈ l.set k b, p x = true := by
  obtain ⟨x, hx, hpx⟩ := h
  obtain ⟨j, hj⟩ := List.mem_iff_getElem?.mp hx
  rcases getElem?_set_kept hk hj b with ⟨rfl, rfl⟩ | ⟨-, hj'⟩
  · exact ⟨b, List.mem_of_getElem? (getElem?_set_of_some hk b), hp hpx⟩
  · exact ⟨x, List.mem_of_getElem? hj', hpx⟩

/-! ### Probing in cyclic order -/

/-- **A full round of probes visits every place**, wherever it starts. -/
theorem exists_offset (start : ℕ) {n k : ℕ} (hk : k < n) :
    ∃ offset < n, (start + offset) % n = k := by
  have hn : 0 < n := by omega
  have hs : start % n < n := Nat.mod_lt _ hn
  rcases Nat.lt_or_ge k (start % n) with h | h
  · refine ⟨n - start % n + k, by omega, ?_⟩
    rw [← Nat.mod_add_mod, show start % n + (n - start % n + k) = k + n by omega,
      Nat.add_mod_right, Nat.mod_eq_of_lt hk]
  · refine ⟨k - start % n, by omega, ?_⟩
    rw [← Nat.mod_add_mod, show start % n + (k - start % n) = k by omega, Nat.mod_eq_of_lt hk]

end QubitConcurrent
