import Mathlib.Logic.Relation

/-! What a computation that may fail has done to a state when it does not fail. -/
namespace Stratus.Lib

variable {ε α β σ : Type} {R : σ → σ → Prop} {s t : σ} {state : α → σ}

/-- Where it ends well, the state at the end is related to `s`. -/
def Ends (R : σ → σ → Prop) (s : σ) (state : α → σ) (r : Except ε α) : Prop :=
  ∀ x, r = .ok x → R s (state x)

theorem Ends.ok {x : α} (h : R s (state x)) : Ends R s state (.ok x : Except ε α) := by
  rintro _ ⟨⟩
  exact h

theorem Ends.error (e : ε) : Ends R s state (.error e) := nofun

theorem Ends.bind {r : Except ε β} {f : β → Except ε α}
    (h : ∀ b, r = .ok b → Ends R s state (f b)) : Ends R s state (r >>= f) := by
  cases r with
  | error e => exact nofun
  | ok b => exact h b rfl

theorem bind_ok {r : Except ε β} {f : β → Except ε α} {a : α} (h : r >>= f = .ok a) :
    ∃ b, r = .ok b ∧ f b = .ok a := by
  cases r with
  | error e => cases h
  | ok b => exact ⟨b, rfl, h⟩

/-- Steps before it. -/
theorem Ends.after {r : Except ε α} (hr : Ends (Relation.ReflTransGen R) t state r)
    (h : Relation.ReflTransGen R s t) : Ends (Relation.ReflTransGen R) s state r :=
  fun x hx => h.trans (hr x hx)

/-- It goes on after another. -/
theorem Ends.andThen {state' : β → σ} {r : Except ε β} {f : β → Except ε α}
    (hr : Ends (Relation.ReflTransGen R) s state' r)
    (h : ∀ b, r = .ok b → Ends (Relation.ReflTransGen R) (state' b) state (f b)) :
    Ends (Relation.ReflTransGen R) s state (r >>= f) :=
  .bind fun b hb => (h b hb).after (hr b hb)

/-- What each step keeps. -/
theorem kept_of_steps (holds : σ → Prop) (hsteps : Relation.ReflTransGen R s t)
    (hstep : ∀ s t, R s t → holds s → holds t) (h : holds s) : holds t := by
  induction hsteps with
  | refl => exact h
  | tail _ hlast ih => exact hstep _ _ hlast ih

end Stratus.Lib
