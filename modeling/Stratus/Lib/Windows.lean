import Mathlib.Data.List.Chain
import Mathlib.Order.Basic

/-! Times in windows.  A window is opened by the first time after the end of the one before it, and has
all times up to its own end. -/
namespace Stratus.Lib

structure Window (α : Type*) where
  start : α
  later : List α

namespace Window

variable {α : Type*}

def times (w : Window α) : List α := w.start :: w.later

def add (w : Window α) (t : α) : Window α := ⟨w.start, w.later ++ [t]⟩

theorem times_add (w : Window α) (t : α) : (w.add t).times = w.times ++ [t] := rfl

end Window

variable {α : Type*} [Preorder α] {ending : α → α} {times : List α} {windows : List (Window α)}

/-- `ending` is when a window ends that was opened at a time. -/
structure Windows (ending : α → α) (times : List α) (windows : List (Window α)) : Prop where
  all : windows.flatMap Window.times = times
  within : ∀ w ∈ windows, ∀ t ∈ w.times, w.start ≤ t ∧ t ≤ ending w.start
  apart : windows.IsChain fun w w' => ending w.start < w'.start

namespace Windows

theorem nil : Windows ending [] ([] : List (Window α)) := ⟨rfl, nofun, .nil⟩

/-- A time after the end of the last window. -/
theorem snoc_new (h : Windows ending times windows) {t : α} (hending : t ≤ ending t)
    (hlast : ∀ w ∈ windows.getLast?, ending w.start < t) :
    Windows ending (times ++ [t]) (windows ++ [⟨t, []⟩]) where
  all := by
    rw [List.flatMap_append, h.all]
    rfl
  within w hw t' ht' := by
    rcases List.mem_append.mp hw with hold | hnew
    · exact h.within w hold t' ht'
    · obtain rfl := List.mem_singleton.mp hnew
      obtain rfl := List.mem_singleton.mp ht'
      exact ⟨le_refl t', hending⟩
  apart := by
    refine h.apart.append (.singleton _) fun w hw w' hw' => ?_
    obtain rfl := Option.some.inj hw'
    exact hlast w hw

/-- A time up to the end of the last window. -/
theorem snoc_add {w : Window α} (h : Windows ending times (windows ++ [w])) {t : α} (hstart : w.start ≤ t)
    (hending : t ≤ ending w.start) : Windows ending (times ++ [t]) (windows ++ [w.add t]) where
  all := by
    rw [← h.all, List.flatMap_append, List.flatMap_append, List.append_assoc]
    congr 1
    rw [List.flatMap_singleton, List.flatMap_singleton, Window.times_add]
  within w' hw' t' ht' := by
    rcases List.mem_append.mp hw' with hold | hnew
    · exact h.within w' (List.mem_append_left _ hold) t' ht'
    · obtain rfl := List.mem_singleton.mp hnew
      rw [Window.times_add] at ht'
      rcases List.mem_append.mp ht' with hold | hlast
      · exact h.within w (List.mem_append_right _ (List.mem_singleton_self w)) t' hold
      · obtain rfl := List.mem_singleton.mp hlast
        exact ⟨hstart, hending⟩
  apart := by
    have hchain := h.apart
    rw [List.isChain_append] at hchain ⊢
    obtain ⟨hwindows, -, hlast⟩ := hchain
    refine ⟨hwindows, .singleton _, fun w' hw' w'' hw'' => ?_⟩
    obtain rfl := Option.some.inj hw''
    exact hlast w' hw' w rfl

end Windows

end Stratus.Lib
