import Mathlib.Data.List.Induction

/-! A history to which events are added, each of them judged by what was there before it. -/
namespace Stratus.Lib

variable {ε : Type*} {proper : List ε → ε → Prop} {history : List ε} {event : ε}

/-- Every event was proper when it happened. -/
def Proper (proper : List ε → ε → Prop) (history : List ε) : Prop :=
  ∀ before event after, history = before ++ event :: after → proper before event

theorem Proper.nil : Proper proper [] := by
  intro before event after h
  cases before <;> cases h

theorem Proper.snoc (h : Proper proper history) (hevent : proper history event) :
    Proper proper (history ++ [event]) := by
  intro before event' after heq
  cases after using List.reverseRecOn with
  | nil =>
      obtain ⟨rfl, rfl⟩ := List.append_singleton_inj.mp heq
      exact hevent
  | append_singleton after last =>
      rw [← List.cons_append, ← List.append_assoc] at heq
      exact h before event' after (List.append_singleton_inj.mp heq).1

/-- An event that is proper only when it has not happened before happens once. -/
theorem Proper.count_eq_one [DecidableEq ε] (h : Proper proper history)
    (honce : ∀ before, proper before event → event ∉ before) (hmem : event ∈ history) :
    history.count event = 1 := by
  obtain ⟨before, after, rfl⟩ := List.append_of_mem hmem
  have hbefore : event ∉ before := honce before (h before event after rfl)
  have hafter : event ∉ after := fun hagain => by
    obtain ⟨between, rest, rfl⟩ := List.append_of_mem hagain
    refine honce (before ++ event :: between) (h _ event rest (by simp)) ?_
    exact List.mem_append_right before List.mem_cons_self
  rw [List.count_append, List.count_cons_self, List.count_eq_zero_of_not_mem hbefore,
    List.count_eq_zero_of_not_mem hafter]

end Stratus.Lib
