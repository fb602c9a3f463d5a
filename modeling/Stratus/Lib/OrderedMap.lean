import Mathlib.Data.List.Nodup
import Mathlib.Logic.Function.Basic

/-! Finite maps that remember the order in which their keys came, such as the `Map` of
JavaScript. -/
namespace Stratus.Lib

structure OrderedMap (κ α : Type) where
  keys : List κ
  get : κ → Option α
  nodup : keys.Nodup
  mem_keys : ∀ k, k ∈ keys ↔ (get k).isSome

namespace OrderedMap

variable {κ α : Type}

@[ext] theorem ext {m m' : OrderedMap κ α} (hkeys : m.keys = m'.keys) (hget : ∀ k, m.get k = m'.get k) :
    m = m' := by
  obtain ⟨keys, get, nodup, mem⟩ := m
  obtain ⟨keys', get', nodup', mem'⟩ := m'
  obtain rfl : keys = keys' := hkeys
  obtain rfl : get = get' := funext hget
  rfl

theorem mem_keys_of_get {m : OrderedMap κ α} {k : κ} {a : α} (h : m.get k = some a) :
    k ∈ m.keys :=
  (m.mem_keys k).mpr (by simp [h])

def empty : OrderedMap κ α where
  keys := []
  get := fun _ => none
  nodup := List.nodup_nil
  mem_keys := by simp

def has (m : OrderedMap κ α) (k : κ) : Bool := (m.get k).isSome

/-- Removes the entries for which `p` holds. -/
def deleteWhere (m : OrderedMap κ α) (p : κ → α → Bool) : OrderedMap κ α where
  keys := m.keys.filter fun k => (m.get k).any fun a => !p k a
  get := fun k => (m.get k).filter fun a => !p k a
  nodup := m.nodup.filter _
  mem_keys := by
    intro k
    have hmem := m.mem_keys k
    rw [List.mem_filter, hmem]
    cases m.get k <;> simp [Option.filter_some, apply_ite]

@[simp] theorem get_empty (k : κ) : (empty : OrderedMap κ α).get k = none := rfl

theorem get_deleteWhere (m : OrderedMap κ α) (p : κ → α → Bool) (k : κ) :
    (m.deleteWhere p).get k = (m.get k).filter fun a => !p k a := rfl

@[simp] theorem get_deleteWhere_eq_some {m : OrderedMap κ α} {p : κ → α → Bool} {k : κ} {a : α} :
    (m.deleteWhere p).get k = some a ↔ m.get k = some a ∧ p k a = false := by
  rw [get_deleteWhere, Option.filter_eq_some_iff, Bool.not_eq_true']

variable [DecidableEq κ]

/-- A key that is there keeps its place, a new one comes last. -/
def set (m : OrderedMap κ α) (k : κ) (a : α) : OrderedMap κ α where
  keys := if m.has k then m.keys else m.keys ++ [k]
  get := Function.update m.get k (some a)
  nodup := by
    have hmem := m.mem_keys k
    have hnodup := m.nodup
    unfold has
    split
    · exact hnodup
    · next hnot =>
      refine List.nodup_append'.mpr ⟨hnodup, List.nodup_singleton k, ?_⟩
      rw [List.disjoint_singleton, hmem]
      exact hnot
  mem_keys := by
    intro k'
    have hmem := m.mem_keys k'
    have hmem' := m.mem_keys k
    unfold has
    by_cases hk : k' = k
    · subst hk
      rw [Function.update_self]
      split <;> simp_all
    · rw [Function.update_of_ne hk]
      split <;> simp_all

def delete (m : OrderedMap κ α) (k : κ) : OrderedMap κ α := m.deleteWhere fun k' _ => k' = k

@[simp] theorem get_set_self (m : OrderedMap κ α) (k : κ) (a : α) : (m.set k a).get k = some a :=
  Function.update_self ..

theorem get_set_ne (m : OrderedMap κ α) {k k' : κ} (a : α) (h : k' ≠ k) :
    (m.set k a).get k' = m.get k' :=
  Function.update_of_ne h ..

theorem get_delete_ne (m : OrderedMap κ α) {k k' : κ} (h : k' ≠ k) :
    (m.delete k).get k' = m.get k' := by
  rw [delete, get_deleteWhere]
  cases m.get k' <;> simp [h]

theorem get_delete_eq_some {m : OrderedMap κ α} {k k' : κ} {a : α} :
    (m.delete k).get k' = some a ↔ k' ≠ k ∧ m.get k' = some a := by
  rw [delete, get_deleteWhere_eq_some, decide_eq_false_iff_not, and_comm]

end OrderedMap

end Stratus.Lib
