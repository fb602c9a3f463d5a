import Mathlib.Logic.Relation

/-! Transition systems, their reachable states and the rules by which an
invariant of one step becomes an invariant of every run. -/
namespace Stratus.Lib

/-- A system is its set of initial states and its step relation. -/
structure System (σ : Type*) where
  init : σ → Prop
  step : σ → σ → Prop

namespace System

variable {σ : Type*} {τ : Type*}

inductive Reachable (sys : System σ) : σ → Prop where
  | start {s : σ} : sys.init s → Reachable sys s
  | next {s t : σ} : Reachable sys s → sys.step s t → Reachable sys t

/-- The same system in which only the steps meeting a condition are taken. -/
def restrict (sys : System σ) (allowed : σ → σ → Prop) : System σ where
  init := sys.init
  step s t := sys.step s t ∧ allowed s t

theorem Reachable.invariant {sys : System σ} (holds : σ → Prop)
    (hinit : ∀ s, sys.init s → holds s)
    (hstep : ∀ s t, holds s → sys.step s t → holds t)
    {s : σ} (hs : sys.Reachable s) : holds s := by
  induction hs with
  | start hs => exact hinit _ hs
  | next _ hst ih => exact hstep _ _ ih hst

theorem Reachable.of_restrict {sys : System σ} {allowed : σ → σ → Prop} {s : σ}
    (hs : (sys.restrict allowed).Reachable s) : sys.Reachable s := by
  induction hs with
  | start hs => exact .start hs
  | next _ hst ih => exact .next ih hst.1

/-- Every run can be brought to an end, when a state that has not ended has a step
to a state of smaller rank. -/
theorem Reachable.ends {sys : System σ} (holds : σ → Prop) (ended : σ → Prop) (rank : σ → Nat)
    (hstep : ∀ s, holds s → ¬ ended s → ∃ t, sys.step s t ∧ holds t ∧ rank t < rank s)
    {s : σ} (hs : sys.Reachable s) (hholds : holds s) :
    ∃ t, sys.Reachable t ∧ holds t ∧ ended t := by
  induction hr : rank s using Nat.strongRecOn generalizing s with
  | _ r ih =>
      by_cases hend : ended s
      · exact ⟨s, hs, hholds, hend⟩
      · obtain ⟨t, hst, ht, hlt⟩ := hstep s hholds hend
        exact ih _ (hr ▸ hlt) (.next hs hst) ht rfl

/-- From any state that meets an invariant some steps lead to the end. -/
theorem exists_end {sys : System σ} (holds : σ → Prop) (ended : σ → Prop) (rank : σ → Nat)
    (hstep : ∀ s, holds s → ¬ ended s → ∃ t, sys.step s t ∧ holds t ∧ rank t < rank s)
    {s : σ} (hs : holds s) : ∃ t, Relation.ReflTransGen sys.step s t ∧ ended t := by
  induction hr : rank s using Nat.strongRecOn generalizing s with
  | _ r ih =>
      by_cases hend : ended s
      · exact ⟨s, .refl, hend⟩
      · obtain ⟨t, hst, ht, hlt⟩ := hstep s hs hend
        obtain ⟨u, htu, hu⟩ := ih _ (hr ▸ hlt) ht rfl
        exact ⟨u, .head hst htu, hu⟩

end System

/-! Systems whose steps have names, and the names of the steps of a run. -/

structure Labelled (σ : Type*) (ν : Type*) where
  init : σ → Prop
  step : σ → ν → σ → Prop

namespace Labelled

variable {σ : Type*} {ν : Type*}

inductive Run (sys : Labelled σ ν) : List ν → σ → Prop where
  | start {s : σ} : sys.init s → Run sys [] s
  | next {trace : List ν} {s t : σ} {name : ν} : Run sys trace s → sys.step s name t →
      Run sys (trace ++ [name]) t

theorem Run.invariant {sys : Labelled σ ν} (holds : List ν → σ → Prop)
    (hinit : ∀ s, sys.init s → holds [] s)
    (hstep : ∀ trace s name t, holds trace s → sys.step s name t → holds (trace ++ [name]) t)
    {trace : List ν} {s : σ} (hs : sys.Run trace s) : holds trace s := by
  induction hs with
  | start hs => exact hinit _ hs
  | next _ hst ih => exact hstep _ _ _ _ ih hst

/-- An invariant of the states alone. -/
theorem Run.always {sys : Labelled σ ν} (holds : σ → Prop) (hinit : ∀ s, sys.init s → holds s)
    (hstep : ∀ s name t, holds s → sys.step s name t → holds t)
    {trace : List ν} {s : σ} (hs : sys.Run trace s) : holds s :=
  hs.invariant (fun _ s => holds s) hinit fun _ s name t => hstep s name t

/-- The steps with these names, one after the other; `none` when one of them is not allowed. -/
def follow (next : σ → ν → Option σ) (allowed : σ → ν → Prop) [∀ s name, Decidable (allowed s name)] :
    List ν → σ → Option σ
  | [], s => some s
  | name :: names, s =>
      if allowed s name then (next s name).bind (follow next allowed names) else none

theorem Run.follow {sys : Labelled σ ν} {next : σ → ν → Option σ} {allowed : σ → ν → Prop}
    [∀ s name, Decidable (allowed s name)] {names trace : List ν} {s t : σ} (hs : sys.Run trace s)
    (hstep : ∀ s name t, allowed s name → next s name = some t → sys.step s name t)
    (h : Labelled.follow next allowed names s = some t) : sys.Run (trace ++ names) t := by
  induction names generalizing trace s with
  | nil =>
      cases h
      rwa [List.append_nil]
  | cons name names ih =>
      rw [Labelled.follow] at h
      split at h
      · next hallowed =>
        obtain ⟨s', hnext, hrest⟩ := Option.bind_eq_some_iff.mp h
        have hrun := ih (.next hs (hstep s name s' hallowed hnext)) hrest
        rwa [List.append_assoc, List.singleton_append] at hrun
      · cases h

/-- A run of a system with one initial state and computed steps is found by taking the steps. -/
theorem exists_run {α : Type*} {start : σ} {next : σ → ν → Option σ} {allowed : σ → ν → Prop}
    [∀ s name, Decidable (allowed s name)] {names : List ν} {f : σ → α} {a : α}
    (h : (follow next allowed names start).map f = some a) :
    ∃ s, (Labelled.mk (· = start) fun s name t => allowed s name ∧ next s name = some t).Run names s ∧
      f s = a := by
  obtain ⟨s, hs, ha⟩ := Option.map_eq_some_iff.mp h
  refine ⟨s, ?_, ha⟩
  exact (Run.start rfl).follow (fun _ _ _ hallowed hnext => ⟨hallowed, hnext⟩) hs

/-- The same for steps that are allowed wherever they can be computed. -/
theorem exists_run_next {α : Type*} {start : σ} {next : σ → ν → Option σ} {names : List ν} {f : σ → α}
    {a : α} (h : (follow next (fun _ _ => True) names start).map f = some a) :
    ∃ s, (Labelled.mk (· = start) fun s name t => next s name = some t).Run names s ∧ f s = a := by
  obtain ⟨s, hs, ha⟩ := Option.map_eq_some_iff.mp h
  refine ⟨s, ?_, ha⟩
  exact (Run.start rfl).follow (fun _ _ _ _ hnext => hnext) hs

end Labelled

/-! A state may keep the things that were created in it as a list. -/

/-- What is in the list after a creation. -/
theorem getElem?_snoc_cases {α : Type*} {l : List α} {x y : α} {i : Nat}
    (h : (l ++ [x])[i]? = some y) : l[i]? = some y ∨ (i = l.length ∧ y = x) := by
  rcases Nat.lt_trichotomy i l.length with hlt | rfl | hgt
  · rw [List.getElem?_append_left hlt] at h
    exact .inl h
  · rw [List.getElem?_concat_length] at h
    exact .inr ⟨rfl, (Option.some.inj h).symm⟩
  · rw [List.getElem?_eq_none (by simp; omega)] at h
    cases h

/-- What is in the list after one thing was replaced. -/
theorem getElem?_set_cases {α : Type*} {l : List α} {x y : α} {i j : Nat}
    (h : (l.set i x)[j]? = some y) : (j = i ∧ y = x) ∨ (j ≠ i ∧ l[j]? = some y) := by
  rw [List.getElem?_set] at h
  split at h
  · next hij =>
    split at h
    · exact .inl ⟨hij.symm, (Option.some.inj h).symm⟩
    · cases h
  · next hij => exact .inr ⟨fun heq => hij heq.symm, h⟩

/-! Two threads over a shared state.  The shared part is of type `σ`; `α` and
`β` are what each thread keeps to itself. -/

structure Threads (σ : Type*) (α : Type*) (β : Type*) where
  init : σ → α → β → Prop
  left : σ → α → σ → α → Prop
  right : σ → β → σ → β → Prop

namespace Threads

variable {σ : Type*} {α : Type*} {β : Type*}

/-- One step of the composition is one step of either thread. -/
inductive Step (threads : Threads σ α β) : σ × α × β → σ × α × β → Prop where
  | left {s s' : σ} {a a' : α} (b : β) (h : threads.left s a s' a') :
      Step threads (s, a, b) (s', a', b)
  | right {s s' : σ} (a : α) {b b' : β} (h : threads.right s b s' b') :
      Step threads (s, a, b) (s', a, b')

def system (threads : Threads σ α β) : System (σ × α × β) where
  init x := threads.init x.1 x.2.1 x.2.2
  step := threads.Step

/-- Rely and guarantee.  Each thread has an assertion about the shared state
and its own part; the other thread is only known through the guarantee its
steps meet, and the assertion has to be stable under that. -/
theorem rely_guarantee {threads : Threads σ α β}
    (leftInv : σ → α → Prop) (rightInv : σ → β → Prop)
    (leftGuar rightGuar : σ → σ → Prop)
    (hinit : ∀ s a b, threads.init s a b → leftInv s a ∧ rightInv s b)
    (hleft : ∀ s a b s' a', leftInv s a → rightInv s b → threads.left s a s' a' →
      leftInv s' a' ∧ leftGuar s s')
    (hright : ∀ s a b s' b', leftInv s a → rightInv s b → threads.right s b s' b' →
      rightInv s' b' ∧ rightGuar s s')
    (leftStable : ∀ s s' a, rightGuar s s' → leftInv s a → leftInv s' a)
    (rightStable : ∀ s s' b, leftGuar s s' → rightInv s b → rightInv s' b)
    {s : σ} {a : α} {b : β} (hs : threads.system.Reachable (s, a, b)) :
    leftInv s a ∧ rightInv s b := by
  refine System.Reachable.invariant
    (fun x => leftInv x.1 x.2.1 ∧ rightInv x.1 x.2.2) ?_ ?_ hs
  · rintro ⟨s, a, b⟩ h
    exact hinit s a b h
  · rintro _ _ ⟨hl, hr⟩ hst
    cases hst with
    | left b h =>
        obtain ⟨hl', hg⟩ := hleft _ _ _ _ _ hl hr h
        exact ⟨hl', rightStable _ _ _ hg hr⟩
    | right a h =>
        obtain ⟨hr', hg⟩ := hright _ _ _ _ _ hl hr h
        exact ⟨leftStable _ _ _ hg hl, hr'⟩

end Threads

/-! An object is called by its users, one call after the other. -/

section Calls

variable {ω α σ τ : Type*}

/-- The answers of an object and its state at the end; `none` is a call that goes wrong. -/
def answers (call : ω → σ → Option (α × σ)) : List ω → σ → Option (List α × σ)
  | [], s => some ([], s)
  | op :: ops, s =>
      (call op s).bind fun first =>
        (answers call ops first.2).map fun rest => (first.1 :: rest.1, rest.2)

/-- The answers of a specification. -/
def specified (spec : ω → τ → α × τ) : List ω → τ → List α × τ
  | [], t => ([], t)
  | op :: ops, t =>
      let first := spec op t
      let rest := specified spec ops first.2
      (first.1 :: rest.1, rest.2)

/-- An object that does in each call what is specified does so in each sequence of calls. -/
theorem answers_eq_specified {call : ω → σ → Option (α × σ)} {spec : ω → τ → α × τ}
    (allowed : ω → Prop) (represents : σ → τ → Prop)
    (hcall : ∀ op s t, allowed op → represents s t →
      ∃ s', call op s = some ((spec op t).1, s') ∧ represents s' (spec op t).2)
    {ops : List ω} (hops : ∀ op ∈ ops, allowed op) {s : σ} {t : τ} (h : represents s t) :
    ∃ s', answers call ops s = some ((specified spec ops t).1, s') ∧
      represents s' (specified spec ops t).2 := by
  induction ops generalizing s t with
  | nil => exact ⟨s, rfl, h⟩
  | cons op ops ih =>
      obtain ⟨s', heq, h'⟩ := hcall op s t (hops op (.head _)) h
      obtain ⟨s'', hrest, h''⟩ := ih (fun op hmem => hops op (.tail _ hmem)) h'
      refine ⟨s'', ?_, h''⟩
      rw [answers, heq, Option.bind_some, hrest, Option.map_some]
      rfl

end Calls

end Stratus.Lib
