import Stratus.Lib.Coroutine

/-! Tasks with phases.  A task is in a phase at each of its awaits: it relies on what its
phase knows of the shared state, and what it does up to its next await depends on the phase
it is in.  At the end is what a task may still do, whatever the others do. -/
namespace Stratus.Lib

section Run

variable {ι : Type} {ρ : ι → Type} {σ α β : Type}

/-- A stretch of `c >>= f` is one of `c`, or goes on in `f`. -/
theorem Coro.run_bind (c : Coro ι ρ σ α) (f : α → Coro ι ρ σ β) (s : σ) :
    (∃ a s', c.run s = (s', .resolved a) ∧ (c >>= f).run s = (f a).run s') ∨
    (∃ message s', c.run s = (s', .rejected message) ∧ (c >>= f).run s = (s', .rejected message)) ∨
    ∃ request k s', c.run s = (s', .waiting request k) ∧
      (c >>= f).run s = (s', .waiting request fun x => k x >>= f) := by
  induction c generalizing s with
  | done a => exact .inl ⟨a, s, rfl, rfl⟩
  | fail message => exact .inr (.inl ⟨message, s, rfl, rfl⟩)
  | get k ih => exact ih s s
  | set s' k ih => exact ih s'
  | await request k _ => exact .inr (.inr ⟨request, k, s, rfl, rfl⟩)

theorem Coro.run_ne_ready (c : Coro ι ρ σ α) (s : σ) {s' : σ} {c' : Coro ι ρ σ α} :
    c.run s ≠ (s', .ready c') := by
  induction c generalizing s with
  | done a => exact nofun
  | fail message => exact nofun
  | get k ih => exact ih s s
  | set s' k ih => exact ih s'
  | await request k _ => exact nofun

theorem Coro.bind_assoc {γ : Type} (c : Coro ι ρ σ α) (f : α → Coro ι ρ σ β) (g : β → Coro ι ρ σ γ) :
    c >>= f >>= g = c >>= fun a => f a >>= g := by
  induction c with
  | done a => rfl
  | fail message => rfl
  | get k ih => exact congrArg Coro.get (funext ih)
  | set s k ih => exact congrArg (Coro.set s) ih
  | await request k ih => exact congrArg (Coro.await request) (funext ih)

/-- A task that is not at its end. -/
def Task.Live : Task ι ρ σ α → Prop
  | .ready _ => True
  | .waiting _ _ => True
  | .resolved _ => False
  | .rejected _ => False

/-- The task at a place runs up to its next await. -/
def World.resume {ω : Type} (w : World ι ρ σ ω α) (i : Nat) (op : ω) (c : Coro ι ρ σ α) :
    World ι ρ σ ω α where
  shared := (c.run w.shared).1
  tasks := w.tasks.set i (op, (c.run w.shared).2)

end Run

/-- `knows` is what holds in a phase whenever the task is resumed, and `moves` what the task
does from one await, in the first phase, to the next, in the second. -/
structure Phases (σ π : Type) where
  knows : π → σ → Prop
  moves : π → σ → π → σ → Prop

namespace Phases

variable {ι : Type} {ρ : ι → Type} {σ α β π : Type} (P : Phases σ π)

/-- The code, started in phase `p` and state `s₀` and now in `s`. -/
def Runs (post : π → σ → α → σ → Prop) (p : π) (s₀ : σ) : Coro ι ρ σ α → σ → Prop
  | .done a, s => post p s₀ a s
  | .fail _, s => ∃ q, P.moves p s₀ q s
  | .get k, s => Runs post p s₀ (k s) s
  | .set s k, _ => Runs post p s₀ k s
  | .await _ k, s => ∃ q, P.moves p s₀ q s ∧ ∀ x s', P.knows q s' → Runs post q s' (k x) s'

/-- The postcondition of a whole task. -/
def Ends (final : π → α → Prop) (p : π) (s₀ : σ) (a : α) (s : σ) : Prop :=
  ∃ q, P.moves p s₀ q s ∧ final q a

/-- A task in a phase. -/
def At (final : π → α → Prop) (p : π) : Task ι ρ σ α → Prop
  | .ready c => ∀ s, P.knows p s → P.Runs (P.Ends final) p s c s
  | .waiting _ k => ∀ x s, P.knows p s → P.Runs (P.Ends final) p s (k x) s
  | .resolved a => final p a
  | .rejected _ => True

variable {P} {post : π → σ → α → σ → Prop} {p : π} {s₀ s : σ} {final : π → α → Prop}

theorem Runs.bind {f : α → Coro ι ρ σ β} {post' : π → σ → β → σ → Prop} {c : Coro ι ρ σ α}
    (h : P.Runs (fun p s₀ a s => P.Runs post' p s₀ (f a) s) p s₀ c s) :
    P.Runs post' p s₀ (c >>= f) s := by
  induction c generalizing p s₀ s with
  | done a => exact h
  | fail message => exact h
  | get k ih => exact ih s h
  | set s' k ih => exact ih h
  | await request k ih =>
      obtain ⟨q, hmoves, hk⟩ := h
      exact ⟨q, hmoves, fun x s' hknows => ih x (hk x s' hknows)⟩

theorem runs_state {f : σ → Coro ι ρ σ α} :
    P.Runs post p s₀ (Coro.state >>= f) s ↔ P.Runs post p s₀ (f s) s := Iff.rfl

theorem runs_put {s' : σ} {f : Unit → Coro ι ρ σ α} :
    P.Runs post p s₀ (Coro.put s' >>= f) s ↔ P.Runs post p s₀ (f ()) s' := Iff.rfl

theorem Runs.mono {post' : π → σ → α → σ → Prop} {c : Coro ι ρ σ α}
    (hpost : ∀ p s₀ a s, post p s₀ a s → post' p s₀ a s) (h : P.Runs post p s₀ c s) :
    P.Runs post' p s₀ c s := by
  induction c generalizing p s₀ s with
  | done a => exact hpost p s₀ a s h
  | fail message => exact h
  | get k ih => exact ih s h
  | set s' k ih => exact ih h
  | await request k ih =>
      obtain ⟨q, hmoves, hk⟩ := h
      exact ⟨q, hmoves, fun x s' hknows => ih x (hk x s' hknows)⟩

/-- One stretch. -/
theorem Runs.stretch {c : Coro ι ρ σ α} (h : P.Runs post p s₀ c s) :
    match c.run s with
    | (s', .resolved a) => post p s₀ a s'
    | (s', .rejected _) => ∃ q, P.moves p s₀ q s'
    | (s', .waiting _ k) => ∃ q, P.moves p s₀ q s' ∧ ∀ x s, P.knows q s → P.Runs post q s (k x) s
    | (_, .ready _) => False := by
  induction c generalizing s with
  | done a => exact h
  | fail message => exact h
  | get k ih => exact ih s h
  | set s' k ih => exact ih h
  | await request k _ => exact h

/-- One stretch of a whole task. -/
theorem Runs.run {c : Coro ι ρ σ α} (h : P.Runs (P.Ends final) p s₀ c s) :
    ∃ q, P.moves p s₀ q (c.run s).1 ∧ P.At final q (c.run s).2 := by
  have hstretch := h.stretch
  revert hstretch
  match c.run s with
  | (s', .resolved a) => exact fun h => h
  | (s', .rejected message) => exact fun ⟨q, hmoves⟩ => ⟨q, hmoves, trivial⟩
  | (s', .waiting request k) => exact fun h => h
  | (s', .ready c') => exact fun h => h.elim

/-- All tasks are in phases, if every step of one of them leaves the others what they know.
`inv` is the invariant of the shared state, and `allowed` says which steps are taken. -/
theorem reachable {ω : Type} {answers : σ → (request : ι) → ρ request → Prop}
    {code : ω → Coro ι ρ σ α} {ambient : σ → σ → Prop} {init : σ → Prop} (inv : σ → Prop) (first : π)
    {allowed : World ι ρ σ ω α → World ι ρ σ ω α → Prop}
    (hinit : ∀ s, init s → inv s) (hfirst : ∀ s, inv s → P.knows first s)
    (hcode : ∀ op, P.At final first (.ready (code op)))
    (hambient : ∀ s s', ambient s s' → (inv s → inv s') ∧ ∀ p, P.knows p s → P.knows p s')
    (hmoves : ∀ (w w' : World ι ρ σ ω α) i op c p q, w.tasks[i]? = some (op, .ready c) →
      w' = w.resume i op c → allowed w w' →
      inv w.shared → P.knows p w.shared → P.At final p (.ready c) → P.moves p w.shared q w'.shared →
      inv w'.shared ∧ P.knows q w'.shared ∧
      ∀ j r t, j ≠ i → w.tasks[j]? = some t → t.2.Live → P.At final r t.2 →
        P.knows r w.shared → P.knows r w'.shared)
    {w : World ι ρ σ ω α}
    (hw : ((World.system answers code ambient init).restrict allowed).Reachable w) :
    inv w.shared ∧ ∀ (j : Nat) t, w.tasks[j]? = some t →
      ∃ p, (t.2.Live → P.knows p w.shared) ∧ P.At final p t.2 := by
  refine System.Reachable.invariant
    (fun w => inv w.shared ∧ ∀ (j : Nat) t, w.tasks[j]? = some t →
      ∃ p, (t.2.Live → P.knows p w.shared) ∧ P.At final p t.2) ?_ ?_ hw
  · rintro w ⟨hshared, htasks⟩
    refine ⟨hinit _ hshared, fun j t hj => ?_⟩
    rw [htasks] at hj
    cases hj
  · rintro w w' ⟨hinv, htasks⟩ ⟨hstep, hallowed⟩
    cases hstep with
    | start op =>
        refine ⟨hinv, fun j t hj => ?_⟩
        rcases List.mem_append.mp (List.mem_of_getElem? hj) with hmem | hmem
        · obtain ⟨j', hj'⟩ := List.getElem?_of_mem hmem
          exact htasks j' t hj'
        · obtain rfl := List.mem_singleton.mp hmem
          exact ⟨first, fun _ => hfirst _ hinv, hcode op⟩
    | answer i x hi hx =>
        refine ⟨hinv, fun j t hj => ?_⟩
        rcases List.mem_or_eq_of_mem_set (List.mem_of_getElem? hj) with hmem | rfl
        · obtain ⟨j', hj'⟩ := List.getElem?_of_mem hmem
          exact htasks j' t hj'
        · obtain ⟨p, hp, hat⟩ := htasks i _ hi
          exact ⟨p, fun _ => hp trivial, fun s hs => hat x s hs⟩
    | @resume i op c hi =>
        obtain ⟨p, hp, hat⟩ := htasks i _ hi
        obtain ⟨q, hmove, hat'⟩ := (hat _ (hp trivial)).run
        obtain ⟨hinv', hq, hothers⟩ :=
          hmoves w _ i op c p q hi rfl hallowed hinv (hp trivial) hat hmove
        refine ⟨hinv', fun j t hj => ?_⟩
        rcases getElem?_set_cases hj with ⟨rfl, rfl⟩ | ⟨hji, hold⟩
        · exact ⟨q, fun _ => hq, hat'⟩
        · obtain ⟨r, hr, hatr⟩ := htasks j t hold
          exact ⟨r, fun hlive => hothers j r t hji hold hlive hatr (hr hlive), hatr⟩
    | ambient h =>
        obtain ⟨hinv', hknows⟩ := hambient _ _ h
        refine ⟨hinv' hinv, fun j t hj => ?_⟩
        obtain ⟨p, hp, hat⟩ := htasks j t hj
        exact ⟨p, fun hlive => hknows p (hp hlive), hat⟩

end Phases

/-! ### Operations that guarantee something of their own -/

section Guarantee

variable {ι : Type} {ρ : ι → Type} {σ ω α : Type} {inv : σ → Prop}

/-- One phase, in which every stretch that begins with the invariant meets `G`. -/
def Phases.guarantee (inv : σ → Prop) (G : σ → σ → Prop) : Phases σ Unit where
  knows _ := inv
  moves _ s _ s' := G s s'

/-- A task keeps what its operation guarantees, if every operation keeps the invariant. -/
theorem Phases.guarantee_reachable {answers : σ → (request : ι) → ρ request → Prop}
    {code : ω → Coro ι ρ σ α} {ambient : σ → σ → Prop} {init : σ → Prop} {G : ω → σ → σ → Prop}
    {final : ω → α → Prop} (hinit : ∀ s, init s → inv s)
    (hcode : ∀ op, (guarantee inv (G op)).At (fun _ => final op) () (.ready (code op)))
    (hG : ∀ op s s', inv s → G op s s' → inv s') (hambient : ∀ s s', ambient s s' → inv s → inv s')
    {w : World ι ρ σ ω α} (hw : (World.system answers code ambient init).Reachable w) :
    inv w.shared ∧ ∀ t ∈ w.tasks, (guarantee inv (G t.1)).At (fun _ => final t.1) () t.2 := by
  refine System.Reachable.invariant
    (fun w => inv w.shared ∧ ∀ t ∈ w.tasks, (guarantee inv (G t.1)).At (fun _ => final t.1) () t.2)
    ?_ ?_ hw
  · rintro w ⟨hshared, htasks⟩
    refine ⟨hinit _ hshared, ?_⟩
    rw [htasks]
    exact nofun
  · rintro w w' ⟨hinv, htasks⟩ hstep
    cases hstep with
    | start op =>
        exact ⟨hinv, List.forall_mem_append.mpr ⟨htasks, List.forall_mem_singleton.mpr (hcode op)⟩⟩
    | answer i x hi hx =>
        refine ⟨hinv, fun t ht => ?_⟩
        rcases List.mem_or_eq_of_mem_set ht with hold | rfl
        · exact htasks t hold
        · exact htasks _ (List.mem_of_getElem? hi) x
    | resume i hi =>
        obtain ⟨_, hmoves, hat⟩ := (htasks _ (List.mem_of_getElem? hi) _ hinv).run
        refine ⟨hG _ _ _ hinv hmoves, fun t ht => ?_⟩
        rcases List.mem_or_eq_of_mem_set ht with hold | rfl
        · exact htasks t hold
        · exact hat
    | ambient h => exact ⟨hambient _ _ h hinv, htasks⟩

end Guarantee

/-! ### What a task may still do -/

/-- In some stretch that starts in a state of `K` the event may come about, after other
such stretches that meet `R`; in between the others do what they like. -/
inductive Coro.May {ι : Type} {ρ : ι → Type} {σ α : Type} (K : σ → Prop) (R : σ → σ → Prop)
    (event : σ → σ → Task ι ρ σ α → Prop) : Coro ι ρ σ α → Prop where
  | now {c : Coro ι ρ σ α} {s : σ} : K s → event s (c.run s).1 (c.run s).2 → May K R event c
  | later {c : Coro ι ρ σ α} {s s' : σ} {request : ι} {k : ρ request → Coro ι ρ σ α} (x : ρ request) :
      K s → c.run s = (s', .waiting request k) → R s s' → May K R event (k x) → May K R event c

namespace Coro.May

variable {ι : Type} {ρ : ι → Type} {σ α : Type} {K K' : σ → Prop} {R : σ → σ → Prop}
    {event : σ → σ → Task ι ρ σ α → Prop}

theorem mono (hK : ∀ s, K s → K' s) {c : Coro ι ρ σ α} (h : c.May K R event) :
    c.May K' R event := by
  induction h with
  | now hs hevent => exact .now (hK _ hs) hevent
  | later x hs hrun hR _ ih => exact .later x (hK _ hs) hrun hR ih

/-- A task that resolves in `wanted`, from any states, does so in its last part. -/
theorem of_bind {β : Type} {wanted : β → Prop} {c : Coro ι ρ σ α} {f : α → Coro ι ρ σ β}
    (h : (c >>= f).May (fun _ => True) (fun _ _ => True) fun _ _ t => ∃ b, t = .resolved b ∧ wanted b) :
    ∃ a, (f a).May (fun _ => True) (fun _ _ => True) fun _ _ t => ∃ b, t = .resolved b ∧ wanted b := by
  generalize hc : c >>= f = d at h
  induction h generalizing c with
  | @now _ s _ hevent =>
      subst hc
      rcases c.run_bind f s with ⟨a, s', _, hrun⟩ | ⟨message, s', _, hrun⟩ | ⟨request, k, s', _, hrun⟩
      · rw [hrun] at hevent
        exact ⟨a, .now (s := s') trivial hevent⟩
      · rw [hrun] at hevent
        obtain ⟨b, hb, _⟩ := hevent
        cases hb
      · rw [hrun] at hevent
        obtain ⟨b, hb, _⟩ := hevent
        cases hb
  | @later _ s s₁ request₁ k₁ x _ hrun₁ _ hmay ih =>
      subst hc
      rcases c.run_bind f s with ⟨a, s', _, hrun⟩ | ⟨message, s', _, hrun⟩ | ⟨request, k, s', _, hrun⟩
      · rw [hrun] at hrun₁
        exact ⟨a, .later x (s := s') trivial hrun₁ trivial hmay⟩
      · rw [hrun] at hrun₁
        cases hrun₁
      · rw [hrun] at hrun₁
        cases hrun₁
        exact ih rfl

end Coro.May

/-- The code that a task goes on with. -/
inductive Task.Next {ι : Type} {ρ : ι → Type} {σ α : Type} : Task ι ρ σ α → Coro ι ρ σ α → Prop where
  | ready (c : Coro ι ρ σ α) : Next (.ready c) c
  | waiting {request : ι} (k : ρ request → Coro ι ρ σ α) (x : ρ request) :
      Next (.waiting request k) (k x)

/-- What a task may do after a stretch it may do before. -/
theorem Coro.May.of_run {ι : Type} {ρ : ι → Type} {σ α : Type} {K : σ → Prop} {R : σ → σ → Prop}
    {event : σ → σ → Task ι ρ σ α → Prop} {c c' : Coro ι ρ σ α} {s : σ} (hK : K s)
    (hR : R s (c.run s).1) (hnext : (c.run s).2.Next c') (h : c'.May K R event) :
    c.May K R event := by
  cases hrun : c.run s with
  | mk s' t =>
      rw [hrun] at hnext hR
      cases hnext with
      | ready c' => exact absurd hrun (c.run_ne_ready s)
      | waiting k x => exact .later x hK hrun hR h

theorem Phases.At.next {ι : Type} {ρ : ι → Type} {σ α π : Type} {P : Phases σ π} {final : π → α → Prop}
    {p : π} {t : Task ι ρ σ α} {c : Coro ι ρ σ α} (h : P.At final p t) (hnext : t.Next c) :
    P.At final p (.ready c) := by
  cases hnext with
  | ready c => exact h
  | waiting k x => exact h x

end Stratus.Lib
