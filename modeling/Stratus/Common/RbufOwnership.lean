import Stratus.Common.RbufSteps

/-! Who owns an entry: the queue from the push on, and the free callback after
the consumer has popped it, once. -/
namespace Stratus.Common.Rbuf

open Stratus.Lib Stratus.Lib.Cyclic

variable {α : Type} {n : Nat}

/-- Counted in the order of the pushes, the callback has been called for the
entries below `freed.length`, the consumer has popped those below `popped`, and
entry `k` is in slot `k % size` until it has been freed. -/
structure Ownership (s : Shared α) (p : Producer α) : Prop where
  freed_in_order : s.buf.freed = s.published.take s.buf.freed.length
  freed_popped : s.buf.freed.length ≤ s.popped
  popped_published : s.popped ≤ s.published.length
  kept : ∀ k (hk : k < s.published.length), s.buf.freed.length ≤ k →
    s.buf.entries (k % s.buf.size) = some s.published[k]
  head_empty : p = .idle → s.buf.entries s.buf.head = none
  /-- Walking back from `tail`, the popped entries left come first. -/
  expired_run : ∀ j, j < s.popped - s.buf.freed.length →
    s.buf.entries ((s.buf.tail + s.buf.size - j) % s.buf.size) = s.published[s.popped - 1 - j]?
  /-- Then nothing, up to the slots that are in the queue. -/
  expired_end : p = .idle → ∀ j, s.popped - s.buf.freed.length ≤ j →
    j + (s.published.length - s.popped) < s.buf.size →
    s.buf.entries ((s.buf.tail + s.buf.size - j) % s.buf.size) = none
  guard : p = .idle → ((s.buf.entries s.buf.tail).isSome ↔ s.buf.freed.length < s.popped)
  destroyed : p = .idle → s.buf.destroy.freed.Perm s.pushed

namespace Cells

variable {s : Shared α} {cleared : Nat} {slot : Option α}

/-- The slot `j` before `tail`, as the slot of an entry number. -/
theorem slot_before_tail (h : Cells n s cleared slot) {j : Nat} (hj : j ≤ n) :
    (s.buf.tail + s.buf.size - j) % s.buf.size = (s.popped + 2 * n + 1 - j) % (n + 1) := by
  rw [h.size_eq, h.tail_eq]
  have hcong : (s.popped + n) % (n + 1) + (n + 1 - j) ≡ s.popped + n + (n + 1 - j) [MOD n + 1] :=
    (Nat.mod_modEq _ _).add_right _
  rw [show (s.popped + n) % (n + 1) + (n + 1) - j = (s.popped + n) % (n + 1) + (n + 1 - j) by
    omega, hcong, show s.popped + n + (n + 1 - j) = s.popped + 2 * n + 1 - j by omega]

/-- One turn of the ring reads off what is left of the appended entries. -/
theorem entries_perm (h : Cells n s cleared none) :
    ((List.range s.buf.size).filterMap s.buf.entries).Perm (s.published.drop cleared) := by
  have hslots : (List.range' cleared (n + 1)).filterMap (fun k => s.buf.entries (k % (n + 1))) =
      s.published.drop cleared := by
    calc (List.range' cleared (n + 1)).filterMap (fun k => s.buf.entries (k % (n + 1)))
        = (List.range' cleared (n + 1)).filterMap (fun k => s.published[k]?) := by
          apply List.filterMap_congr
          intro k hk
          rw [List.mem_range'_1] at hk
          rw [h.cell k hk.1 hk.2]
          split
          · next heq => rw [heq, List.getElem?_eq_none le_rfl]
          · rfl
      _ = s.published.drop cleared := by
          rw [filterMap_range_getElem, List.take_of_length_le]
          have := h.room
          rw [List.length_drop]
          omega
  rw [h.size_eq, ← hslots]
  calc ((List.range (n + 1)).filterMap s.buf.entries).Perm
        (((List.range' cleared (n + 1)).map (· % (n + 1))).filterMap s.buf.entries) :=
        ((range_perm_turn cleared (n + 1)).filterMap _).symm
    _ = (List.range' cleared (n + 1)).filterMap (fun k => s.buf.entries (k % (n + 1))) := by
        rw [List.filterMap_map]
        rfl

end Cells

/-- Every entry whose push returned 0 is freed exactly once, by the callback's
order of calls never before it is popped, and is in its slot until then. -/
theorem entries_owned_once {s : Shared α} {p : Producer α} {c : Consumer} (hn : n < 2 ^ 30)
    (hs : Reachable n s p c) : Ownership s p := by
  obtain ⟨⟨cleared, h⟩, -⟩ := reachable_inv hn hs
  have hc := h.cells
  have hle := hc.cleared_le
  have hfreed := hc.freed_le
  have hpopped := hc.popped_le
  have hroom := hc.room
  have hsize := hc.size_eq
  -- between calls nothing is freed and not yet cleared
  have hidle : p = .idle → cleared = s.buf.freed.length := by
    rintro rfl
    exact h.cleared_eq
  have hslot : p = .idle → p.slot = none := by
    rintro rfl
    rfl
  refine ⟨hc.freed_eq, hfreed, hpopped, ?_, ?_, ?_, ?_, ?_, ?_⟩
  · intro k hk hge
    rw [hsize]
    exact hc.entry (by omega) hk
  · intro hp
    rw [hc.head_eq, hc.cell _ (by omega) (by omega), if_pos rfl, hslot hp]
  · intro j hj
    rw [hc.slot_before_tail (by omega),
      show s.popped + 2 * n + 1 - j = s.popped - 1 - j + (n + 1) + (n + 1) by omega,
      Nat.add_mod_right, Nat.add_mod_right, hc.entry (by omega) (by omega),
      List.getElem?_eq_getElem]
  · intro hp j hge hlt
    have := hidle hp
    rw [hc.slot_before_tail (by omega),
      show s.popped + 2 * n + 1 - j = s.popped + n - j + (n + 1) by omega, Nat.add_mod_right,
      hc.cell _ (by omega) (by omega), hslot hp, List.getElem?_eq_none (by omega), ite_self]
  · intro hp
    have hcl := hidle hp
    constructor
    · intro hsome
      by_contra hnot
      have hempty : s.buf.entries ((s.popped + n) % (n + 1)) = none := by
        rw [hc.cell _ (by omega) (by omega), hslot hp, List.getElem?_eq_none (by omega), ite_self]
      rw [hc.tail_eq, hempty] at hsome
      cases hsome
    · intro hlt
      rw [hc.tail_eq, show s.popped + n = s.popped - 1 + (n + 1) by omega, Nat.add_mod_right,
        hc.entry (by omega) (by omega)]
      rfl
  · intro hp
    subst hp
    obtain rfl := hidle rfl
    have hpushed : s.pushed = s.published := by simpa [Producer.pending] using h.pushed_eq
    rw [hpushed]
    unfold Buf.destroy
    dsimp only
    by_cases hfree : s.buf.free = true
    · rw [if_pos hfree]
      calc (s.buf.freed ++ (List.range s.buf.size).filterMap s.buf.entries).Perm
            (s.buf.freed ++ s.published.drop s.buf.freed.length) :=
            (hc.entries_perm).append_left _
        _ = s.published := by
            nth_rewrite 1 [hc.freed_eq]
            exact List.take_append_drop _ _
    · have hnil : s.published = [] := by
        by_contra hne
        exact hfree (hc.registered hne)
      have hfnil : s.buf.freed = [] := by
        rw [hc.freed_eq, hnil, List.take_nil]
      rw [if_neg hfree, hnil, hfnil]
      exact List.Perm.refl _

/-- Two pushes into one place, with the first entry popped in between. -/
def wrapRun : List (Action Nat) :=
  [Action.producer (some .setFree), .producer (some (.push 5))] ++
    List.replicate 9 (Action.producer none) ++ [Action.consumer (some .pop)] ++
    List.replicate 5 (Action.consumer none) ++ [Action.producer (some (.push 6))] ++
    List.replicate 17 (Action.producer none)

theorem entries_owned_once_wrapRun :
    ∃ x, run (Shared.start 1, .idle, .idle) wrapRun = some x ∧
      x.1.pushed = [5, 6] ∧ x.1.buf.freed = [5] ∧ Ownership x.1 x.2.1 := by
  have hend : (run (Shared.start 1, .idle, .idle) wrapRun).map
      (fun x => (x.1.pushed, x.1.buf.freed)) = some ([5, 6], [5]) := by decide +kernel
  obtain ⟨x, hx, heq⟩ := Option.map_eq_some_iff.mp hend
  obtain ⟨hpushed, hfreed⟩ := Prod.mk.inj heq
  exact ⟨x, hx, hpushed, hfreed,
    entries_owned_once (n := 1) (c := x.2.2) (by decide)
      (run_reachable (.start ⟨rfl, rfl, rfl⟩) hx)⟩

end Stratus.Common.Rbuf
