import Stratus.Lib.Transition

/-! Cooperative tasks.  A task runs without interruption up to its next await, where
it makes a request and gives way to the others; it goes on some time after the request
has been answered.  The logic at the end is a rely-guarantee logic in which a task is
only interfered with at its awaits. -/
namespace Stratus.Lib

/-- The code of a task over a shared state `σ`.  `get` and `set` do not give way. -/
inductive Coro (ι : Type) (ρ : ι → Type) (σ : Type) (α : Type) : Type where
  | done (a : α)
  | fail (message : String)
  | get (k : σ → Coro ι ρ σ α)
  | set (s : σ) (k : Coro ι ρ σ α)
  | await (request : ι) (k : ρ request → Coro ι ρ σ α)

namespace Coro

variable {ι : Type} {ρ : ι → Type} {σ α β : Type}

def bind : Coro ι ρ σ α → (α → Coro ι ρ σ β) → Coro ι ρ σ β
  | .done a, f => f a
  | .fail message, _ => .fail message
  | .get k, f => .get fun s => (k s).bind f
  | .set s k, f => .set s (k.bind f)
  | .await request k, f => .await request fun x => (k x).bind f

instance : Monad (Coro ι ρ σ) where
  pure := .done
  bind := bind

/-- The shared state. -/
def state : Coro ι ρ σ σ := .get .done

def put (s : σ) : Coro ι ρ σ Unit := .set s (.done ())

def wait (request : ι) : Coro ι ρ σ (ρ request) := .await request .done

end Coro

/-- What has become of a task. -/
inductive Task (ι : Type) (ρ : ι → Type) (σ : Type) (α : Type) : Type where
  | ready (code : Coro ι ρ σ α)
  | waiting (request : ι) (k : ρ request → Coro ι ρ σ α)
  | resolved (a : α)
  | rejected (message : String)

/-- Run up to the next await. -/
def Coro.run {ι : Type} {ρ : ι → Type} {σ α : Type} : Coro ι ρ σ α → σ → σ × Task ι ρ σ α
  | .done a, s => (s, .resolved a)
  | .fail message, s => (s, .rejected message)
  | .get k, s => (k s).run s
  | .set s k, _ => k.run s
  | .await request k, s => (s, .waiting request k)

/-- Run to the end, with these answers and without other tasks; `none` when it throws. -/
def Coro.alone {ι : Type} {ρ : ι → Type} {σ α : Type} (answer : (request : ι) → ρ request) :
    Coro ι ρ σ α → σ → Option (α × σ)
  | .done a, s => some (a, s)
  | .fail _, _ => none
  | .get k, s => (k s).alone answer s
  | .set s k, _ => k.alone answer s
  | .await request k, s => (k (answer request)).alone answer s

theorem Coro.alone_bind {ι : Type} {ρ : ι → Type} {σ α β : Type}
    (answer : (request : ι) → ρ request) (c : Coro ι ρ σ α) (f : α → Coro ι ρ σ β) (s : σ) :
    (c >>= f).alone answer s = (c.alone answer s).bind fun x => (f x.1).alone answer x.2 := by
  show (c.bind f).alone answer s = _
  induction c generalizing s with
  | done a => rfl
  | fail message => rfl
  | get k ih => exact ih s s
  | set s' k ih => exact ih s'
  | await request k ih => exact ih (answer request) s

/-- The tasks in the order of their starts, each with the operation it performs. -/
structure World (ι : Type) (ρ : ι → Type) (σ ω α : Type) where
  shared : σ
  tasks : List (ω × Task ι ρ σ α)

section System

variable {ι : Type} {ρ : ι → Type} {σ ω α : Type}

/-- `answers` says how a request can be answered in a state, `code` what an operation
does, and `ambient` what happens to the shared state without a task. -/
inductive World.Step (answers : σ → (request : ι) → ρ request → Prop) (code : ω → Coro ι ρ σ α)
    (ambient : σ → σ → Prop) : World ι ρ σ ω α → World ι ρ σ ω α → Prop where
  | start {w : World ι ρ σ ω α} (op : ω) :
      Step answers code ambient w { w with tasks := w.tasks ++ [(op, .ready (code op))] }
  | answer {w : World ι ρ σ ω α} (i : Nat) {op : ω} {request : ι} {k : ρ request → Coro ι ρ σ α}
      (x : ρ request) : w.tasks[i]? = some (op, .waiting request k) → answers w.shared request x →
      Step answers code ambient w { w with tasks := w.tasks.set i (op, .ready (k x)) }
  | resume {w : World ι ρ σ ω α} (i : Nat) {op : ω} {c : Coro ι ρ σ α} :
      w.tasks[i]? = some (op, .ready c) →
      Step answers code ambient w
        { shared := (c.run w.shared).1, tasks := w.tasks.set i (op, (c.run w.shared).2) }
  | ambient {w : World ι ρ σ ω α} {s : σ} : ambient w.shared s →
      Step answers code ambient w { w with shared := s }

def World.system (answers : σ → (request : ι) → ρ request → Prop) (code : ω → Coro ι ρ σ α)
    (ambient : σ → σ → Prop) (init : σ → Prop) : System (World ι ρ σ ω α) where
  init w := init w.shared ∧ w.tasks = []
  step := World.Step answers code ambient

end System

/-! ### Runs that are computed

The answers, and the changes without a task, are given as functions.  A step that cannot be taken,
or does not pass a check, is left out. -/

/-- A step; tasks are named by their places. -/
inductive Move (ω : Type) where
  | start (op : ω)
  | answer (i : Nat)
  | resume (i : Nat)
  | ambient

/-- A task gets an answer, if it waits for one, and goes on; so many times. -/
def Move.turns {ω : Type} (i n : Nat) : List (Move ω) :=
  (List.replicate n [.answer i, .resume i]).flatten

section Moves

variable {ι : Type} {ρ : ι → Type} {σ ω α : Type}
  (answer : σ → (request : ι) → Option (ρ request)) (code : ω → Coro ι ρ σ α)
  (change : σ → Option σ)

def World.move (w : World ι ρ σ ω α) : Move ω → World ι ρ σ ω α
  | .start op => { w with tasks := w.tasks ++ [(op, .ready (code op))] }
  | .answer i =>
      match w.tasks[i]? with
      | some (op, .waiting request k) =>
          match answer w.shared request with
          | some x => { w with tasks := w.tasks.set i (op, .ready (k x)) }
          | none => w
      | _ => w
  | .resume i =>
      match w.tasks[i]? with
      | some (op, .ready c) =>
          { shared := (c.run w.shared).1, tasks := w.tasks.set i (op, (c.run w.shared).2) }
      | _ => w
  | .ambient =>
      match change w.shared with
      | some s => { w with shared := s }
      | none => w

def World.moves (check : World ι ρ σ ω α → World ι ρ σ ω α → Prop) [DecidableRel check] :
    List (Move ω) → World ι ρ σ ω α → World ι ρ σ ω α
  | [], w => w
  | move :: moves, w =>
      World.moves check moves
        (if check w (w.move answer code change move) then w.move answer code change move else w)

variable {answer code change} {answers : σ → (request : ι) → ρ request → Prop}
  {ambient : σ → σ → Prop} {init : σ → Prop}

theorem World.move_eq_or_step
    (hanswer : ∀ s request x, answer s request = some x → answers s request x)
    (hchange : ∀ s s', change s = some s' → ambient s s') (w : World ι ρ σ ω α) (move : Move ω) :
    w.move answer code change move = w ∨
      World.Step answers code ambient w (w.move answer code change move) := by
  cases move with
  | start op => exact .inr (.start op)
  | answer i =>
      simp only [World.move]
      split
      · next op request k hi =>
        split
        · next x hx => exact .inr (.answer i x hi (hanswer _ _ _ hx))
        · exact .inl rfl
      · exact .inl rfl
  | resume i =>
      simp only [World.move]
      split
      · next op c hi => exact .inr (.resume i hi)
      · exact .inl rfl
  | ambient =>
      simp only [World.move]
      split
      · next s hs => exact .inr (.ambient (hchange _ _ hs))
      · exact .inl rfl

theorem World.reachable_moves
    (hanswer : ∀ s request x, answer s request = some x → answers s request x)
    (hchange : ∀ s s', change s = some s' → ambient s s')
    {allowed check : World ι ρ σ ω α → World ι ρ σ ω α → Prop} [DecidableRel check]
    (hcheck : ∀ w w', check w w' → allowed w w') (moves : List (Move ω)) {w : World ι ρ σ ω α}
    (hw : ((World.system answers code ambient init).restrict allowed).Reachable w) :
    ((World.system answers code ambient init).restrict allowed).Reachable
      (w.moves answer code change check moves) := by
  induction moves generalizing w with
  | nil => exact hw
  | cons move moves ih =>
      apply ih
      split
      · next hpasses =>
        have hmove : w.move answer code change move = w ∨
            World.Step answers code ambient w (w.move answer code change move) :=
          World.move_eq_or_step hanswer hchange w move
        rcases hmove with heq | hstep
        · rw [heq]
          exact hw
        · exact hw.next ⟨hstep, hcheck _ _ hpasses⟩
      · exact hw

end Moves

/-! ### The logic -/

/-- The invariant of the shared state, what a task relies on at an await, and the
steps that are looked at. -/
structure Contract (ι : Type) (ρ : ι → Type) (σ : Type) where
  answers : σ → (request : ι) → ρ request → Prop
  inv : σ → Prop
  rely : σ → σ → Prop
  allowed : σ → σ → Prop
  refl : ∀ s, rely s s
  trans : ∀ s s' s'', rely s s' → rely s' s'' → rely s s''

namespace Contract

variable {ι : Type} {ρ : ι → Type} {σ α β : Type} (C : Contract ι ρ σ)

/-- A stretch from one await to the next, when it is one of the steps looked at. -/
def Keeps (s₀ s : σ) : Prop := C.allowed s₀ s → C.inv s ∧ C.rely s₀ s

/-- The code, started in `s₀` and now in `s`, keeps the contract and ends in `post`. -/
def Runs (post : σ → α → σ → Prop) (s₀ : σ) : Coro ι ρ σ α → σ → Prop
  | .done a, s => post s₀ a s
  | .fail _, s => C.Keeps s₀ s
  | .get k, s => Runs post s₀ (k s) s
  | .set s k, _ => Runs post s₀ k s
  | .await request k, s => C.Keeps s₀ s ∧ (C.allowed s₀ s →
      ∀ s₁ x, C.rely s s₁ → C.inv s₁ → C.answers s₁ request x →
        ∀ s₂, C.rely s₁ s₂ → C.inv s₂ → Runs post s₂ (k x) s₂)

/-- Code that may be started whenever the invariant holds. -/
def Spec (post : σ → α → σ → Prop) (c : Coro ι ρ σ α) : Prop := ∀ s, C.inv s → C.Runs post s c s

/-- The postcondition of a whole task. -/
def Ends (q : α → σ → Prop) (s₀ : σ) (a : α) (s : σ) : Prop :=
  C.allowed s₀ s → C.inv s ∧ C.rely s₀ s ∧ q a s

variable {C} {post : σ → α → σ → Prop} {s₀ s : σ}

theorem Runs.bind {f : α → Coro ι ρ σ β} {post' : σ → β → σ → Prop} {c : Coro ι ρ σ α}
    (h : C.Runs (fun s₀ a s => C.Runs post' s₀ (f a) s) s₀ c s) : C.Runs post' s₀ (c >>= f) s := by
  induction c generalizing s₀ s with
  | done a => exact h
  | fail message => exact h
  | get k ih => exact ih s h
  | set s' k ih => exact ih h
  | await request k ih =>
      refine ⟨h.1, fun hallowed s₁ x hrely hinv hx s₂ hrely₂ hinv₂ => ?_⟩
      exact ih x (h.2 hallowed s₁ x hrely hinv hx s₂ hrely₂ hinv₂)

theorem runs_state {f : σ → Coro ι ρ σ α} :
    C.Runs post s₀ (Coro.state >>= f) s ↔ C.Runs post s₀ (f s) s := Iff.rfl

theorem runs_put {s' : σ} {f : Unit → Coro ι ρ σ α} :
    C.Runs post s₀ (Coro.put s' >>= f) s ↔ C.Runs post s₀ (f ()) s' := Iff.rfl

theorem Runs.mono {post' : σ → α → σ → Prop} {c : Coro ι ρ σ α}
    (hpost : ∀ s₀ a s, post s₀ a s → post' s₀ a s) (h : C.Runs post s₀ c s) :
    C.Runs post' s₀ c s := by
  induction c generalizing s₀ s with
  | done a => exact hpost s₀ a s h
  | fail message => exact h
  | get k ih => exact ih s h
  | set s' k ih => exact ih h
  | await request k ih =>
      refine ⟨h.1, fun hallowed s₁ x hrely hinv hx s₂ hrely₂ hinv₂ => ?_⟩
      exact ih x (h.2 hallowed s₁ x hrely hinv hx s₂ hrely₂ hinv₂)

/-- An assertion that others cannot invalidate at an await. -/
def Stable (C : Contract ι ρ σ) (p : σ → Prop) : Prop :=
  ∀ s s', C.rely s s' → C.inv s' → p s → p s'

theorem Stable.and {p q : σ → Prop} (hp : C.Stable p) (hq : C.Stable q) :
    C.Stable fun s => p s ∧ q s :=
  fun s s' hrely hinv h => ⟨hp s s' hrely hinv h.1, hq s s' hrely hinv h.2⟩

/-- After an await a new stretch has begun. -/
theorem Runs.wait {request : ι} {p : ρ request → σ → Prop} (hkeeps : C.Keeps s₀ s)
    (hp : ∀ x, C.Stable (p x))
    (hx : C.allowed s₀ s → ∀ s₁ x, C.rely s s₁ → C.inv s₁ → C.answers s₁ request x → p x s₁) :
    C.Runs (fun s₀ x s => s = s₀ ∧ C.inv s ∧ p x s) s₀ (Coro.wait request) s := by
  refine ⟨hkeeps, fun hallowed s₁ x hrely hinv hanswer s₂ hrely₂ hinv₂ => ⟨rfl, hinv₂, ?_⟩⟩
  exact hp x s₁ s₂ hrely₂ hinv₂ (hx hallowed s₁ x hrely hinv hanswer)

/-- An await that only matters as one. -/
theorem Runs.yield {request : ι} {p : σ → Prop} (hkeeps : C.Keeps s₀ s) (hp : C.Stable p)
    (hs : C.allowed s₀ s → p s) :
    C.Runs (fun s₀ _ s => s = s₀ ∧ C.inv s ∧ p s) s₀ (Coro.wait request) s :=
  Runs.wait hkeeps (fun _ => hp) fun hallowed s₁ _ hrely hinv _ => hp s s₁ hrely hinv (hs hallowed)

/-- What is known of a task that another task has been run beside. -/
def Sound (C : Contract ι ρ σ) (q : α → σ → Prop) (s : σ) : Task ι ρ σ α → Prop
  | .ready c => ∀ s₁, C.rely s s₁ → C.inv s₁ → C.Runs (C.Ends q) s₁ c s₁
  | .waiting request k => ∀ s₁ x, C.rely s s₁ → C.inv s₁ → C.answers s₁ request x →
      ∀ s₂, C.rely s₁ s₂ → C.inv s₂ → C.Runs (C.Ends q) s₂ (k x) s₂
  | .resolved a => q a s
  | .rejected _ => True

theorem Sound.later {q : α → σ → Prop} (hq : ∀ a s s', C.rely s s' → C.inv s' → q a s → q a s')
    {s' : σ} {t : Task ι ρ σ α} (h : C.Sound q s t) (hrely : C.rely s s') (hinv : C.inv s') :
    C.Sound q s' t := by
  cases t with
  | ready c => exact fun s₁ h₁ hinv₁ => h s₁ (C.trans _ _ _ hrely h₁) hinv₁
  | waiting request k =>
      exact fun s₁ x h₁ hinv₁ hx s₂ h₂ hinv₂ =>
        h s₁ x (C.trans _ _ _ hrely h₁) hinv₁ hx s₂ h₂ hinv₂
  | resolved a => exact hq a s s' hrely hinv h
  | rejected message => trivial

theorem Runs.run {q : α → σ → Prop} {c : Coro ι ρ σ α} (h : C.Runs (C.Ends q) s₀ c s)
    (hallowed : C.allowed s₀ (c.run s).1) :
    C.inv (c.run s).1 ∧ C.rely s₀ (c.run s).1 ∧ C.Sound q (c.run s).1 (c.run s).2 := by
  induction c generalizing s with
  | done a =>
      obtain ⟨hinv, hrely, ha⟩ := h hallowed
      exact ⟨hinv, hrely, ha⟩
  | fail message =>
      obtain ⟨hinv, hrely⟩ := h hallowed
      exact ⟨hinv, hrely, trivial⟩
  | get k ih => exact ih s h hallowed
  | set s' k ih => exact ih h hallowed
  | await request k _ =>
      obtain ⟨hinv, hrely⟩ := h.1 hallowed
      exact ⟨hinv, hrely, h.2 hallowed⟩

/-- If every operation keeps the contract, all tasks do in every run. -/
theorem reachable {ω : Type} {q : α → σ → Prop} {code : ω → Coro ι ρ σ α} {ambient : σ → σ → Prop}
    {init : σ → Prop} (hq : ∀ a s s', C.rely s s' → C.inv s' → q a s → q a s')
    (hinit : ∀ s, init s → C.inv s) (hcode : ∀ op, C.Spec (C.Ends q) (code op))
    (hambient : ∀ s s', C.inv s → ambient s s' → C.Keeps s s') {w : World ι ρ σ ω α}
    (hw : ((World.system C.answers code ambient init).restrict
      fun w w' => C.allowed w.shared w'.shared).Reachable w) :
    C.inv w.shared ∧ ∀ t ∈ w.tasks, C.Sound q w.shared t.2 := by
  refine System.Reachable.invariant
    (fun w => C.inv w.shared ∧ ∀ t ∈ w.tasks, C.Sound q w.shared t.2) ?_ ?_ hw
  · rintro w ⟨hshared, htasks⟩
    refine ⟨hinit _ hshared, ?_⟩
    rw [htasks]
    exact fun t ht => absurd ht List.not_mem_nil
  · rintro w w' ⟨hinv, htasks⟩ ⟨hstep, hallowed⟩
    cases hstep with
    | start op =>
        refine ⟨hinv, fun t ht => ?_⟩
        rcases List.mem_append.mp ht with ht | ht
        · exact htasks t ht
        · obtain rfl := List.mem_singleton.mp ht
          exact fun s₁ _ hinv₁ => hcode op s₁ hinv₁
    | answer i x hi hx =>
        refine ⟨hinv, fun t ht => ?_⟩
        rcases List.mem_or_eq_of_mem_set ht with ht | rfl
        · exact htasks t ht
        · have hwaiting := htasks _ (List.mem_of_getElem? hi)
          exact fun s₁ h₁ hinv₁ => hwaiting _ x (C.refl _) hinv hx s₁ h₁ hinv₁
    | resume i hi =>
        have hready := htasks _ (List.mem_of_getElem? hi)
        obtain ⟨hinv', hrely, hsound⟩ := (hready _ (C.refl _) hinv).run hallowed
        refine ⟨hinv', fun t ht => ?_⟩
        rcases List.mem_or_eq_of_mem_set ht with ht | rfl
        · exact (htasks t ht).later hq hrely hinv'
        · exact hsound
    | ambient h =>
        obtain ⟨hinv', hrely⟩ := hambient _ _ hinv h hallowed
        exact ⟨hinv', fun t ht => (htasks t ht).later hq hrely hinv'⟩

end Contract

end Stratus.Lib
