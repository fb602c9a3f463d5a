import Mathlib.Data.List.Sort
import Mathlib.Data.List.Range
import Mathlib.Order.Bounds.Basic

/-! Numbers that are handed out, the smallest first, and that come back. -/
namespace Stratus.Lib

/-- The numbers from `next` on were never handed out; of the others some are `available` again. -/
structure IndexPool where
  next : Nat
  available : List Nat

namespace IndexPool

variable {p : IndexPool} {used : Set Nat}

def take (p : IndexPool) : Nat × IndexPool :=
  match p.available with
  | [] => (p.next, { p with next := p.next + 1 })
  | i :: available => (i, { p with available := available })

def release (p : IndexPool) (i : Nat) : IndexPool :=
  { p with available := (p.available ++ [i]).insertionSort (· ≤ ·) }

/-- A number that was never handed out is only taken where none is available. -/
theorem next_take (p : IndexPool) : p.take.2.next = p.next ∨ p.take.2.available = [] := by
  unfold take
  split
  · next hempty => exact .inr hempty
  · exact .inl rfl

/-- Each number that was handed out is in use or available. -/
structure Serves (p : IndexPool) (used : Set Nat) : Prop where
  sorted : p.available.Pairwise (· < ·)
  lt_next_iff (i : Nat) : i < p.next ↔ i ∈ used ∨ i ∈ p.available
  disjoint (i : Nat) : i ∈ used → i ∉ p.available

namespace Serves

theorem nodup (h : p.Serves used) : p.available.Nodup := h.sorted.imp Nat.ne_of_lt

/-- A number that is taken is the smallest of those not in use. -/
theorem take_isLeast (h : p.Serves used) : IsLeast usedᶜ p.take.1 := by
  have hsorted := h.sorted
  unfold take
  split
  · next hempty =>
    refine ⟨fun hused => ?_, fun j hj => ?_⟩
    · exact Nat.lt_irrefl _ ((h.lt_next_iff _).mpr (.inl hused))
    · by_contra hlt
      rcases (h.lt_next_iff j).mp (Nat.lt_of_not_le hlt) with hused | hmem
      · exact hj hused
      · rw [hempty] at hmem
        cases hmem
  · next i available hcons =>
    have hi : i ∈ p.available := by
      rw [hcons]
      exact List.mem_cons_self
    refine ⟨fun hused => h.disjoint i hused hi, fun j hj => ?_⟩
    rcases Nat.lt_or_ge j p.next with hlt | hge
    · have hmem := ((h.lt_next_iff j).mp hlt).resolve_left hj
      rw [hcons] at hmem hsorted
      rcases List.mem_cons.mp hmem with rfl | hrest
      · exact Nat.le_refl _
      · exact (List.rel_of_pairwise_cons hsorted hrest).le
    · exact ((h.lt_next_iff i).mpr (.inr hi)).le.trans hge

theorem take (h : p.Serves used) : p.take.2.Serves (insert p.take.1 used) := by
  have hleast := h.take_isLeast
  unfold IndexPool.take at hleast ⊢
  split at hleast
  · next hempty =>
    refine ⟨h.sorted, fun i => ?_, fun i _ => ?_⟩
    · change i < p.next + 1 ↔ _
      rw [Nat.lt_succ_iff_lt_or_eq, h.lt_next_iff, Set.mem_insert_iff]
      tauto
    · change i ∉ p.available
      rw [hempty]
      exact List.not_mem_nil
  · next i available hcons =>
    have hsorted := h.sorted
    rw [hcons] at hsorted
    refine ⟨hsorted.of_cons, fun j => ?_, fun j hj hmem => ?_⟩
    · change j < p.next ↔ _
      rw [h.lt_next_iff, hcons, List.mem_cons, Set.mem_insert_iff]
      tauto
    · rcases hj with rfl | hused
      · exact Nat.lt_irrefl _ (List.rel_of_pairwise_cons hsorted hmem)
      · exact h.disjoint j hused (hcons ▸ List.mem_cons_of_mem _ hmem)

theorem release (h : p.Serves used) {i : Nat} (hi : i ∈ used) :
    (p.release i).Serves (used \ {i}) := by
  have hmem (j : Nat) : j ∈ (p.release i).available ↔ j ∈ p.available ∨ j = i := by
    rw [IndexPool.release, List.mem_insertionSort, List.mem_append, List.mem_singleton]
  refine ⟨?_, fun j => ?_, fun j hj => ?_⟩
  · have hle := List.pairwise_insertionSort (· ≤ ·) (p.available ++ [i])
    have hnodup : (p.release i).available.Nodup := by
      refine (List.perm_insertionSort _ _).nodup_iff.mpr ?_
      rw [List.nodup_append]
      refine ⟨h.nodup, List.nodup_singleton i, fun j hj k hk => ?_⟩
      rw [List.mem_singleton.mp hk]
      rintro rfl
      exact h.disjoint j hi hj
    exact (hle.and hnodup).imp fun hle_ne => Nat.lt_of_le_of_ne hle_ne.1 hle_ne.2
  · change j < p.next ↔ _
    rw [h.lt_next_iff, hmem]
    by_cases hj : j = i
    · subst hj
      simp [hi]
    · simp [hj]
  · rw [hmem]
    rintro (hold | rfl)
    · exact h.disjoint j hj.1 hold
    · exact hj.2 rfl

/-- As many numbers as were handed out are in use or available. -/
theorem next_le {l : List Nat} (h : p.Serves {i | i ∈ l}) : p.next ≤ l.length + p.available.length := by
  have hsub : List.range p.next ⊆ l ++ p.available := by
    intro i hi
    exact List.mem_append.mpr ((h.lt_next_iff i).mp (List.mem_range.mp hi))
  have hle := (List.subperm_of_subset List.nodup_range hsub).length_le
  rwa [List.length_range, List.length_append] at hle

end Serves

end IndexPool

end Stratus.Lib
