import Mathlib.Data.List.Nodup
import Mathlib.Data.List.Perm.Basic
import Mathlib.Data.Nat.ModEq

/-! Numbers that never wrap and the slots they fall into: number `k` is in slot
`k % m`, and within one turn of the ring a slot determines its number. -/
namespace Stratus.Lib.Cyclic

theorem mod_inj {m i j : Nat} (hij : i ≤ j) (hj : j < i + m) (h : i % m = j % m) : i = j := by
  have hdvd : m ∣ j - i := (Nat.modEq_iff_dvd' hij).mp h
  have hzero : j - i = 0 := Nat.eq_zero_of_dvd_of_lt hdvd (by omega)
  omega

theorem mod_inj_of_window {m c i j : Nat} (hi : c ≤ i) (hi' : i < c + m) (hj : c ≤ j)
    (hj' : j < c + m) (h : i % m = j % m) : i = j := by
  rcases Nat.le_total i j with hij | hji
  · exact mod_inj hij (by omega) h
  · exact (mod_inj hji (by omega) h.symm).symm

/-- Two counts at most `n` apart are told apart by their slots in a ring of
`n + 1`: one spare slot makes the occupancy formula exact. -/
theorem used_mod {n head tail : Nat} (hle : tail ≤ head) (hfull : head ≤ tail + n) :
    (head % (n + 1) + (n + 1) - (tail + n) % (n + 1) - 1) % (n + 1) = head - tail := by
  have hb : (tail + n) % (n + 1) < n + 1 := Nat.mod_lt _ (by omega)
  have hcong : (head % (n + 1) + (n + 1) - (tail + n) % (n + 1) - 1) +
      ((tail + n) % (n + 1) + 1) ≡ (head - tail) + ((tail + n) % (n + 1) + 1) [MOD n + 1] := by
    calc (head % (n + 1) + (n + 1) - (tail + n) % (n + 1) - 1) + ((tail + n) % (n + 1) + 1)
        = head % (n + 1) + (n + 1) := by omega
      _ ≡ head + (n + 1) [MOD n + 1] := (Nat.mod_modEq head (n + 1)).add_right _
      _ = (head - tail) + ((tail + n) + 1) := by omega
      _ ≡ (head - tail) + ((tail + n) % (n + 1) + 1) [MOD n + 1] :=
        ((Nat.mod_modEq (tail + n) (n + 1)).symm.add_right 1).add_left _
  have hmod := Nat.ModEq.add_right_cancel' _ hcong
  rw [hmod, Nat.mod_eq_of_lt (by omega)]

/-- One turn of the ring, from any number on, visits every slot once. -/
theorem range_perm_turn (c m : Nat) :
    ((List.range' c m).map (· % m)).Perm (List.range m) := by
  rcases Nat.eq_zero_or_pos m with rfl | hm
  · simp
  have hnodup : ((List.range' c m).map (· % m)).Nodup := by
    refine List.Nodup.map_on ?_ List.nodup_range'
    intro i hi j hj h
    simp only [List.mem_range'_1] at hi hj
    exact mod_inj_of_window hi.1 hi.2 hj.1 hj.2 h
  refine (List.subperm_of_subset hnodup ?_).perm_of_length_le (by simp)
  intro i hi
  obtain ⟨k, _, rfl⟩ := List.mem_map.mp hi
  exact List.mem_range.mpr (Nat.mod_lt k hm)

/-- Reading consecutive numbers off a list gives a slice of it. -/
theorem filterMap_range_getElem {α : Type*} (l : List α) (c m : Nat) :
    (List.range' c m).filterMap (fun k => l[k]?) = (l.drop c).take m := by
  induction m generalizing c with
  | zero => simp
  | succ m ih =>
      rw [List.range'_succ, List.filterMap_cons, ih]
      by_cases hc : c < l.length
      · rw [List.getElem?_eq_getElem hc, List.drop_eq_getElem_cons hc, List.take_succ_cons]
      · rw [List.getElem?_eq_none (by omega), List.drop_eq_nil_of_le (by omega),
          List.drop_eq_nil_of_le (by omega), List.take_nil, List.take_nil]

end Stratus.Lib.Cyclic
