import Mathlib.Data.List.Nodup

/-! What a program does with its resources, act by act, and what it holds afterwards. -/
namespace Stratus.Lib

inductive Act (ρ : Type*) where
  | acquire (r : ρ)
  | use (r : ρ)
  | release (r : ρ)
deriving DecidableEq

section Ledger

variable {ρ : Type*} [DecidableEq ρ]

/-- The resources that are held after some acts.  `none` when one is acquired that is held, or one
is used or released that is not. -/
def settle : List (Act ρ) → List ρ → Option (List ρ)
  | [], held => some held
  | .acquire r :: acts, held => if r ∈ held then none else settle acts (r :: held)
  | .use r :: acts, held => if r ∈ held then settle acts held else none
  | .release r :: acts, held => if r ∈ held then settle acts (held.erase r) else none

/-- Everything is released that is held at first or acquired, and nothing else, and it is used only
before that. -/
def Settles (held : List ρ) (acts : List (Act ρ)) : Prop := settle acts held = some []

instance (held : List ρ) (acts : List (Act ρ)) : Decidable (Settles held acts) := by
  unfold Settles
  infer_instance

variable {acts more : List (Act ρ)} {held : List ρ} {r : ρ}

theorem settle_append (acts more : List (Act ρ)) (held : List ρ) :
    settle (acts ++ more) held = (settle acts held).bind (settle more) := by
  induction acts generalizing held with
  | nil => rfl
  | cons act acts ih =>
      cases act with
      | acquire r =>
          simp only [List.cons_append, settle]
          split
          · rfl
          · exact ih _
      | use r =>
          simp only [List.cons_append, settle]
          split
          · exact ih _
          · rfl
      | release r =>
          simp only [List.cons_append, settle]
          split
          · exact ih _
          · rfl

/-- As many releases as there were acquisitions, as far as the resource is not held still. -/
theorem count_of_settle {held' : List ρ} (h : settle acts held = some held') (r : ρ) :
    held.count r + acts.count (.acquire r) = held'.count r + acts.count (.release r) := by
  induction acts generalizing held with
  | nil =>
      cases h
      rfl
  | cons act acts ih =>
      cases act with
      | acquire x =>
          simp only [settle] at h
          split at h
          · cases h
          · have hrest := ih h
            rw [List.count_cons] at hrest
            simp only [List.count_cons, Act.acquire.injEq, beq_iff_eq, reduceCtorEq, if_false] at hrest ⊢
            omega
      | use x =>
          simp only [settle] at h
          split at h
          · simpa [List.count_cons] using ih h
          · cases h
      | release x =>
          simp only [settle] at h
          split at h
          · next hmem =>
            have hrest := ih h
            rw [List.count_erase] at hrest
            by_cases hx : x = r
            · subst hx
              have hpos : 0 < held.count x := List.count_pos_iff.mpr hmem
              simp only [List.count_cons, beq_self_eq_true, if_true, reduceCtorEq, beq_iff_eq,
                if_false] at hrest ⊢
              omega
            · simpa [List.count_cons, hx, beq_iff_eq, Ne.symm hx] using hrest
          · cases h

theorem nodup_of_settle {held' : List ρ} (hnodup : held.Nodup) (h : settle acts held = some held') :
    held'.Nodup := by
  induction acts generalizing held with
  | nil =>
      cases h
      exact hnodup
  | cons act acts ih =>
      cases act with
      | acquire x =>
          simp only [settle] at h
          split at h
          · cases h
          · next hmem => exact ih (List.nodup_cons.mpr ⟨hmem, hnodup⟩) h
      | use x =>
          simp only [settle] at h
          split at h
          · exact ih hnodup h
          · cases h
      | release x =>
          simp only [settle] at h
          split at h
          · exact ih (hnodup.erase x) h
          · cases h

/-- What has been released and not acquired again is not held. -/
theorem not_mem_of_released {held' : List ρ} (hnodup : held.Nodup)
    (h : settle (.release r :: acts) held = some held') (hacquire : .acquire r ∉ acts) :
    r ∉ held' := by
  have hcount := count_of_settle h r
  have hone := List.nodup_iff_count_le_one.mp hnodup r
  have hnone : (Act.release r :: acts).count (.acquire r) = 0 :=
    List.count_eq_zero_of_not_mem (by simpa using hacquire)
  rw [List.count_cons_self, hnone] at hcount
  rw [← List.count_eq_zero]
  omega

/-- Nothing is right any more once a resource is touched after its release. -/
theorem settle_reuse {acts mid more : List (Act ρ)} (hnodup : held.Nodup)
    (hacquire : .acquire r ∉ mid) {act : Act ρ} (hact : act = .use r ∨ act = .release r) :
    settle (acts ++ (.release r :: mid ++ act :: more)) held = none := by
  rw [settle_append]
  cases hacts : settle acts held with
  | none => rfl
  | some before =>
      rw [Option.bind_some, settle_append]
      cases hmid : settle (.release r :: mid) before with
      | none => rfl
      | some after =>
          have hgone := not_mem_of_released (nodup_of_settle hnodup hacts) hmid hacquire
          rw [Option.bind_some]
          obtain rfl | rfl := hact
          · exact if_neg hgone
          · exact if_neg hgone

end Ledger

end Stratus.Lib
