import Mathlib.Algebra.BigOperators.Group.Finset.Basic
import Mathlib.Algebra.Order.BigOperators.Group.Finset

/-! A heap of objects that hold references to each other, and the number of
references to an address.  Addresses are given out in order and not used again, so
an address stands for one object for good. -/
namespace Stratus.Lib

structure Heap (α : Type*) where
  objs : Nat → Option α
  next : Nat
  fresh : ∀ a, next ≤ a → objs a = none

namespace Heap

variable {α : Type*}

def empty : Heap α where
  objs _ := none
  next := 0
  fresh _ _ := rfl

/-- Overwrite or remove the object at an address that has been given out. -/
def set (h : Heap α) (a : Nat) (o : Option α) : Heap α where
  objs i := if i = a ∧ a < h.next then o else h.objs i
  next := h.next
  fresh i hi := by rw [if_neg (by omega), h.fresh i hi]

/-- Put an object at the next address. -/
def alloc (h : Heap α) (o : α) : Heap α where
  objs i := if i = h.next then some o else h.objs i
  next := h.next + 1
  fresh i hi := by rw [if_neg (by omega), h.fresh i (by omega)]

variable {h : Heap α} {a : Nat} {o : α}

theorem lt_next (ho : h.objs a = some o) : a < h.next := by
  by_contra hge
  rw [h.fresh a (by omega)] at ho
  cases ho

theorem objs_set (ho : h.objs a = some o) (v : Option α) (i : Nat) :
    (h.set a v).objs i = if i = a then v else h.objs i := by
  have := lt_next ho
  unfold set
  simp only [this, and_true]

theorem objs_set_ne {i : Nat} (hne : i ≠ a) (h : Heap α) (v : Option α) :
    (h.set a v).objs i = h.objs i := if_neg (fun hi => hne hi.1)

@[simp]
theorem objs_alloc (h : Heap α) (o : α) (i : Nat) :
    (h.alloc o).objs i = if i = h.next then some o else h.objs i := rfl

theorem set_comm {b : Nat} (h : Heap α) (v w : Option α) (hab : a ≠ b) :
    (h.set a v).set b w = (h.set b w).set a v := by
  unfold set
  congr 1
  funext i
  dsimp only
  split_ifs with h₁ h₂ <;> first | rfl | omega

theorem set_set (h : Heap α) (v w : Option α) : (h.set a v).set a w = h.set a w := by
  unfold set
  congr 1
  funext i
  dsimp only
  split_ifs <;> rfl

theorem set_self (ho : h.objs a = some o) : h.set a (some o) = h := by
  obtain ⟨objs, next, fresh⟩ := h
  unfold set
  congr 1
  funext i
  dsimp only at ho ⊢
  split
  · next hi => rw [hi.1, ho]
  · rfl

/-! ### References -/

/-- The references to `a` that an entry of the heap holds. -/
def entryRefs (refs : α → List Nat) (a : Nat) : Option α → Nat
  | none => 0
  | some o => (refs o).count a

theorem entryRefs_some (refs : α → List Nat) (a : Nat) (o : α) :
    entryRefs refs a (some o) = (refs o).count a := rfl

/-- How many references to `a` the objects of the heap hold. -/
def holds (refs : α → List Nat) (h : Heap α) (a : Nat) : Nat :=
  ∑ i ∈ Finset.range h.next, entryRefs refs a (h.objs i)

variable {refs : α → List Nat}

theorem holds_set (ho : h.objs a = some o) (v : Option α) (t : Nat) :
    (h.set a v).holds refs t + (refs o).count t = h.holds refs t + entryRefs refs t v := by
  have hmem : a ∈ Finset.range h.next := Finset.mem_range.mpr (lt_next ho)
  have hnew := Finset.add_sum_erase _ (fun i => entryRefs refs t ((h.set a v).objs i)) hmem
  have hold := Finset.add_sum_erase _ (fun i => entryRefs refs t (h.objs i)) hmem
  have hrest : ∑ i ∈ (Finset.range h.next).erase a, entryRefs refs t ((h.set a v).objs i) =
      ∑ i ∈ (Finset.range h.next).erase a, entryRefs refs t (h.objs i) := by
    refine Finset.sum_congr rfl fun i hi => ?_
    rw [objs_set ho, if_neg (Finset.ne_of_mem_erase hi)]
  have hself : (h.set a v).objs a = v := by rw [objs_set ho, if_pos rfl]
  rw [hself, hrest] at hnew
  rw [ho, entryRefs_some] at hold
  change ∑ i ∈ Finset.range h.next, _ + _ = ∑ i ∈ Finset.range h.next, _ + _
  omega

theorem holds_alloc (h : Heap α) (o : α) (t : Nat) :
    (h.alloc o).holds refs t = h.holds refs t + (refs o).count t := by
  unfold holds
  rw [show (h.alloc o).next = h.next + 1 from rfl, Finset.sum_range_succ, objs_alloc, if_pos rfl]
  congr 1
  refine Finset.sum_congr rfl fun i hi => ?_
  rw [objs_alloc, if_neg (Nat.ne_of_lt (Finset.mem_range.mp hi))]

/-- Nothing refers to an address that no references are counted for. -/
theorem count_le_holds (ho : h.objs a = some o) (t : Nat) :
    (refs o).count t ≤ h.holds refs t := by
  have hle := Finset.single_le_sum (f := fun i => entryRefs refs t (h.objs i))
    (fun i _ => Nat.zero_le _) (Finset.mem_range.mpr (lt_next ho))
  rwa [ho] at hle

/-- An address that is not given out yet is referred to by nobody. -/
theorem holds_eq_zero {t : Nat} (hnone : ∀ a o, h.objs a = some o → t ∉ refs o) :
    h.holds refs t = 0 := by
  refine Finset.sum_eq_zero fun i _ => ?_
  cases ho : h.objs i with
  | none => rfl
  | some o => exact List.count_eq_zero_of_not_mem (hnone i o ho)

/-- When an object holds at most one reference to `t`, the references are counted by
the objects that hold one. -/
theorem holds_eq_countP {t : Nat} (p : α → Bool)
    (hp : ∀ a o, h.objs a = some o → (refs o).count t = if p o then 1 else 0) :
    h.holds refs t = (List.range h.next).countP fun a => (h.objs a).any p := by
  unfold holds
  generalize h.next = n
  induction n with
  | zero => rfl
  | succ n ih =>
      rw [Finset.sum_range_succ, List.range_succ, List.countP_append, List.countP_singleton, ih]
      congr 1
      cases ho : h.objs n with
      | none => rfl
      | some o =>
          rw [entryRefs_some, hp n o ho]
          rfl

end Heap

end Stratus.Lib
