import Stratus.Backend.Accounts
import Stratus.Backend.DurableStore
import Stratus.Lib.Phases

/-! What the handlers of `authController.ts` do to the users, from one await to the next. -/
namespace Stratus.Backend

open Stratus.Lib

/-- A loaded store stays loaded and keeps its users. -/
def Quiet (s s' : Store) : Prop :=
  s.storeData.isSome → s'.storeData.isSome ∧ s'.users = s.users

theorem Quiet.refl (s : Store) : Quiet s s := fun h => ⟨h, rfl⟩

/-- The records have not been touched. -/
theorem Quiet.of_storeData {s s' : Store} (h : s'.storeData = s.storeData) : Quiet s s' := by
  intro hloaded
  unfold Store.users
  rw [h]
  exact ⟨hloaded, rfl⟩

/-- A phase in which only quiet stretches are made.  Of the stretches only those that are
`looked` at matter: all, if the store is loaded in this phase, else those in which it is not
loaded twice. -/
structure Calm {π : Type} (P : Phases Store π) (looked : Store → Store → Prop) (p : π) : Prop where
  moves : ∀ s s', (looked s s' → Quiet s s') → P.moves p s p s'
  loads : (∀ s, P.knows p s → s.storeData.isSome) ∨ looked = LoadsOnce

section Code

variable {π : Type} {P : Phases Store π} {looked : Store → Store → Prop} {p q : π} {s₀ s : Store}

/-- At the beginning of a stretch in phase `q`. -/
def Starts {α : Type} (P : Phases Store π) (q : π) (p : π) (s₀ : Store) (_ : α) (s : Store) : Prop :=
  p = q ∧ s = s₀ ∧ P.knows q s

theorem Starts.moves {α : Type} {a : α} (hcalm : Calm P looked q) (h : Starts P q p s₀ a s) :
    P.moves p s₀ q s := by
  obtain ⟨rfl, rfl, _⟩ := h
  exact hcalm.moves _ _ fun _ => .refl s

theorem wait_phase (request : Request) (hmoves : P.moves p s₀ q s) :
    P.Runs (Starts P q) p s₀ (Coro.wait request : Async _) s :=
  ⟨q, hmoves, fun _ _ hknows => ⟨rfl, rfl, hknows⟩⟩

/-- `await f()`, where the phase may depend on the result. -/
theorem call_phase {α : Type} {f : Async α} (phase : α → π) {r : α → Prop}
    (h : P.Runs (fun p s₀ a s => P.moves p s₀ (phase a) s ∧ r a) p s₀ f s) :
    P.Runs (fun p s₀ a s => Starts P (phase a) p s₀ a s ∧ r a) p s₀ (call f) s := by
  refine Phases.Runs.bind (h.mono ?_)
  rintro p s₀ a s ⟨hmoves, hr⟩
  exact Phases.Runs.bind ((wait_phase .tick hmoves).mono fun _ _ _ _ hstarts => ⟨hstarts, hr⟩)

theorem persist_phase (hcalm : Calm P looked q)
    (hmoves : ∀ s', s'.storeData = s.storeData → s'.loads = s.loads → P.moves p s₀ q s') :
    P.Runs (fun p s₀ _ s => P.moves p s₀ q s) p s₀ persist s := by
  unfold persist
  rw [Phases.runs_state]
  split
  · exact hmoves s rfl rfl
  · refine Phases.Runs.bind ((wait_phase .mkdir (hmoves s.called rfl rfl)).mono ?_)
    rintro q _ _ s₁ ⟨rfl, rfl, _⟩
    refine (wait_phase _ (q := q) ?_).mono fun _ _ _ _ h => h.moves hcalm
    exact hcalm.moves _ _ fun _ => .of_storeData rfl

theorem call_persist_phase (hcalm : Calm P looked q)
    (hmoves : ∀ s', s'.storeData = s.storeData → s'.loads = s.loads → P.moves p s₀ q s') :
    P.Runs (Starts P q) p s₀ (call persist) s := by
  refine (call_phase (fun _ => q) (r := fun _ => True)
    ((persist_phase hcalm hmoves).mono fun _ _ _ _ h => ⟨h, trivial⟩)).mono ?_
  exact fun _ _ _ _ h => h.1

/-- Awaits that leave the store alone. -/
theorem calm_wait (hcalm : Calm P looked p) (request : Request) :
    P.Runs (Starts P p) p s (Coro.wait request : Async _) s :=
  wait_phase request (hcalm.moves _ _ fun _ => .refl s)

theorem calm_pathExists (hcalm : Calm P looked p) (path : Path) :
    P.Runs (Starts P p) p s (call (pathExists path)) s := by
  refine (call_phase (fun _ => p) (r := fun _ => True)
    ((calm_wait hcalm (.access path)).mono fun _ _ _ _ h => ⟨h.moves hcalm, trivial⟩)).mono ?_
  exact fun _ _ _ _ h => h.1

theorem calm_readSeedGames (hcalm : Calm P looked p) :
    P.Runs (Starts P p) p s (call readSeedGames) s := by
  refine (call_phase (fun _ => p) (r := fun _ => True) ?_).mono fun _ _ _ _ h => h.1
  unfold readSeedGames
  refine Phases.Runs.bind ((calm_pathExists hcalm .seed).mono ?_)
  rintro _ _ found s₁ ⟨rfl, rfl, _⟩
  split
  · refine Phases.Runs.bind ((calm_wait hcalm (.readFile .seed)).mono ?_)
    exact fun _ _ _ _ h => ⟨h.moves hcalm, trivial⟩
  · exact ⟨hcalm.moves _ _ fun _ => .refl _, trivial⟩

/-- A load is only looked at when the store is not loaded. -/
theorem quiet_assign {users games : List Json} {s' : Store} (h : LoadsOnce s s')
    (hloads : s'.loads = (s.assign users games).loads) : Quiet s s' := by
  intro hloaded
  have hsame : s'.loads = s.loads := h hloaded
  have hmore : (s.assign users games).loads = s.loads + 1 := rfl
  omega

theorem ensureLoaded_phase (hcalm : Calm P looked p) (hs : P.knows p s) :
    P.Runs (fun p' s₀ _ s => P.moves p' s₀ p s) p s ensureLoaded s := by
  have hrefl : ∀ s, P.moves p s p s := fun s => hcalm.moves s s fun _ => .refl s
  unfold ensureLoaded
  change P.Runs _ p s (if s.storeData.isSome = true then _ else _) s
  split
  · exact hrefl s
  · next hnone =>
    have hlooked : looked = LoadsOnce :=
      hcalm.loads.resolve_left fun hloaded => hnone (hloaded s hs)
    have hassign : ∀ (s s' : Store) (users games : List Json),
        s'.loads = (s.assign users games).loads → P.moves p s p s' :=
      fun s s' users games hloads => hcalm.moves _ _ fun h => quiet_assign (hlooked ▸ h) hloads
    have hpersist : ∀ (s : Store) (users games : List Json),
        P.Runs (fun p' s₀ _ s => P.moves p' s₀ p s) p s
          (do
            assign users games
            call persist) s := by
      intro s users games
      refine Phases.Runs.mono ?_ (call_persist_phase hcalm
        (s := s.assign users games) fun s' _ hloads => hassign s s' users games hloads)
      exact fun _ _ _ _ h => h.moves hcalm
    refine Phases.Runs.bind ((calm_wait hcalm .mkdir).mono ?_)
    rintro _ _ _ s₁ ⟨rfl, rfl, _⟩
    refine Phases.Runs.bind ((calm_pathExists hcalm .store).mono ?_)
    rintro _ _ found s₂ ⟨rfl, rfl, _⟩
    split
    · refine Phases.Runs.bind ((calm_wait hcalm (.readFile .store)).mono ?_)
      rintro _ _ text s₃ ⟨rfl, rfl, _⟩
      split
      · refine Phases.Runs.bind ((calm_readSeedGames hcalm).mono ?_)
        rintro _ _ games s₄ ⟨rfl, rfl, _⟩
        exact hpersist s₄ [] games
      · split
        · exact hassign _ _ _ _ rfl
        · split
          · exact ⟨_, hrefl _⟩
          · exact hpersist s₃ _ _
    · refine Phases.Runs.bind ((calm_readSeedGames hcalm).mono ?_)
      rintro _ _ games s₃ ⟨rfl, rfl, _⟩
      exact hpersist s₃ [] games

theorem call_ensureLoaded_phase (hcalm : Calm P looked p) (hs : P.knows p s) :
    P.Runs (Starts P p) p s (call ensureLoaded) s := by
  refine (call_phase (fun _ => p) (r := fun _ => True)
    ((ensureLoaded_phase hcalm hs).mono fun _ _ _ _ h => ⟨h, trivial⟩)).mono ?_
  exact fun _ _ _ _ h => h.1

/-- A getter reads the store at the beginning of a stretch, or fails. -/
theorem getter_phase {α : Type} (hcalm : Calm P looked p) (hs : P.knows p s)
    (read : StoreData → α) :
    P.Runs (fun p' s₀ a s => Starts P p p' s₀ a s ∧ ∃ d, s.storeData = some d ∧ a = read d) p s
      (getter read) s := by
  unfold getter
  refine Phases.Runs.bind ((call_ensureLoaded_phase hcalm hs).mono ?_)
  rintro _ _ _ s₁ ⟨rfl, rfl, hs₁⟩
  refine Phases.Runs.bind ?_
  unfold loaded
  rw [Phases.runs_state]
  split
  · next d hd => exact ⟨⟨rfl, rfl, hs₁⟩, d, hd, rfl⟩
  · exact ⟨_, hcalm.moves _ _ fun _ => .refl _⟩

end Code

/-! ### Creating a user -/

/-- Where a handler is with the user that it is to insert, if any. -/
inductive Phase where
  | idle
  | inserting (user : Json)
  | inserted

/-- No user has the name of that one. -/
def Unused (js : Unicode) (user : Json) (users : List Entry) : Prop :=
  ∀ name, hasUsername js name ⟨0, user⟩ = true → ∀ e ∈ users, hasUsername js name e = false

/-- A stretch in which one user is inserted. -/
def Inserts (user : Json) (s s' : Store) : Prop :=
  s.storeData.isSome ∧ s'.storeData.isSome ∧ ∃ ref, s'.users = s.users ++ [⟨ref, user⟩]

/-- The name is looked for in one stretch and the user inserted in the next. -/
def phaseMoves (js : Unicode) (looked : Store → Store → Prop) :
    Phase → Store → Phase → Store → Prop
  | .idle, s, .idle, s' => looked s s' → Quiet s s'
  | .idle, s, .inserting user, s' => looked s s' → Quiet s s' ∧ Unused js user s'.users
  | .inserting user, s, .inserted, s' => looked s s' → Inserts user s s'
  | .inserting _, s, .idle, s' => looked s s' → s.storeData = none ∧ Quiet s s'
  | .inserted, s, .inserted, s' => looked s s' → Quiet s s'
  | _, _, _, _ => False

/-- The phases of a handler; what they know is left open. -/
def handlerPhases (js : Unicode) (looked : Store → Store → Prop) (knows : Phase → Store → Prop) :
    Phases Store Phase where
  knows := knows
  moves := phaseMoves js looked

section Handlers

variable {js : Unicode} {looked : Store → Store → Prop} {knows : Phase → Store → Prop}
    {s : Store}

/-- In a phase either the store is loaded, or only its first load is looked at. -/
def Loading (looked : Store → Store → Prop) (knows : Phase → Store → Prop) : Prop :=
  (∀ p s, knows p s → s.storeData.isSome) ∨ looked = LoadsOnce

theorem calm_idle (hload : Loading looked knows) :
    Calm (handlerPhases js looked knows) looked .idle :=
  ⟨fun _ _ h => h, hload.imp_left fun h => h .idle⟩

theorem calm_inserted (hload : Loading looked knows) :
    Calm (handlerPhases js looked knows) looked .inserted :=
  ⟨fun _ _ h => h, hload.imp_left fun h => h .inserted⟩

/-- The record of a new user has the name that has been looked for. -/
theorem hasUsername_userRecord (input : NewUser) (username uuid name : String) (ref : Nat) :
    hasUsername js name ⟨ref, userRecord input username uuid⟩ =
      decide (js.toLowerCase (js.trim username) = name) := rfl

/-- The insertion, with the records written out. -/
theorem insert_phase {α : Type} (hload : Loading looked knows) (user : Json) (result : Entry → α) :
    (handlerPhases js looked knows).Runs (Starts (handlerPhases js looked knows) .inserted)
      (.inserting user) s
      (do
        let e ← push .users user
        call persist
        return result e) s := by
  unfold push loaded
  refine Phases.Runs.bind (Phases.Runs.bind ?_)
  rw [Phases.runs_state]
  split
  · next d hd =>
    change Phases.Runs _ _ _ s (call persist >>= fun _ => pure (result ⟨s.fresh, user⟩))
      { s with storeData := some (d.push .users ⟨s.fresh, user⟩), fresh := s.fresh + 1 }
    refine Phases.Runs.bind (Phases.Runs.mono ?_ (call_persist_phase (calm_inserted hload) ?_))
    · exact fun _ _ _ _ h => h
    · intro s' hdata _ _
      unfold Inserts Store.users
      rw [hdata, hd]
      exact ⟨rfl, rfl, s.fresh, rfl⟩
  · next hnone => exact ⟨.idle, fun _ => ⟨hnone, .refl _⟩⟩

theorem createUser_phase (hload : Loading looked knows) (hs : knows .idle s) (input : NewUser)
    (uuid : String) :
    (handlerPhases js looked knows).Runs
      (Starts (handlerPhases js looked knows) .inserted) .idle s (createUser js input uuid) s := by
  unfold createUser
  refine Phases.Runs.bind ((call_ensureLoaded_phase (calm_idle hload) hs).mono ?_)
  rintro _ _ _ s₁ ⟨rfl, rfl, hs₁⟩
  dsimp only
  split
  · exact ⟨.idle, fun _ => .refl _⟩
  · let phase (found : Option Entry) : Phase :=
      found.elim (.inserting (userRecord input (js.trim input.username) uuid)) fun _ => .idle
    have hfind : (handlerPhases js looked knows).Runs
        (fun p s₀ a s => (handlerPhases js looked knows).moves p s₀ (phase a) s ∧ True) .idle s₁
        (getUserByUsername js (js.trim input.username)) s₁ := by
      refine (getter_phase (calm_idle hload) hs₁ _).mono ?_
      rintro _ _ existing s₂ ⟨⟨rfl, rfl, _⟩, d, hd, rfl⟩
      refine ⟨?_, trivial⟩
      cases hfound : d.users.find? _ with
      | some _ => exact fun _ => .refl _
      | none =>
          refine fun _ => ⟨.refl _, fun name hname e he => ?_⟩
          rw [hasUsername_userRecord, decide_eq_true_eq] at hname
          rw [Store.users, hd] at he
          simpa [hname] using List.find?_eq_none.mp hfound e he
    refine Phases.Runs.bind ((call_phase phase hfind).mono ?_)
    rintro _ _ existing s₂ ⟨⟨rfl, rfl, hs₂⟩, _⟩
    cases existing with
    | some _ => exact ⟨.idle, fun _ => .refl _⟩
    | none => exact insert_phase hload _ _

/-! ### The handlers -/

/-- An account is only answered for when it has been inserted. -/
def Answered (p : Phase) (answer : AuthAnswer) : Prop :=
  ∀ token user, answer = .created token user → p = .inserted

/-- An answer at the beginning of a stretch. -/
theorem answer_phase {p : Phase} {answer : AuthAnswer}
    (hcalm : Calm (handlerPhases js looked knows) looked p) (hanswer : Answered p answer) :
    (handlerPhases js looked knows).Ends Answered p s answer s :=
  ⟨p, hcalm.moves _ _ fun _ => .refl _, hanswer⟩

theorem attempt_phase {α β : Type} {p : Phase} {post : Phase → Store → β → Store → Prop}
    (hcalm : Calm (handlerPhases js looked knows) looked p) (x : Except String α) {f : α → Async β}
    (h : ∀ a, (handlerPhases js looked knows).Runs post p s (f a) s) :
    (handlerPhases js looked knows).Runs post p s (attempt x >>= f) s := by
  cases x with
  | ok a => exact h a
  | error message => exact ⟨p, hcalm.moves _ _ fun _ => .refl _⟩

/-- An awaited call that stays in a phase. -/
theorem stay_phase {α : Type} {p : Phase} {f : Async α}
    (hcalm : Calm (handlerPhases js looked knows) looked p)
    (h : (handlerPhases js looked knows).Runs (Starts (handlerPhases js looked knows) p) .idle s f s) :
    (handlerPhases js looked knows).Runs (Starts (handlerPhases js looked knows) p) .idle s
      (call f) s := by
  refine (call_phase (fun _ => p) (r := fun _ => True)
    (h.mono fun _ _ _ _ h => ⟨h.moves hcalm, trivial⟩)).mono ?_
  exact fun _ _ _ _ h => h.1

theorem createUserNamed_phase (hload : Loading looked knows) (hs : knows .idle s) (username : Json)
    (input : String → NewUser) (uuid : String) :
    (handlerPhases js looked knows).Runs (Starts (handlerPhases js looked knows) .inserted) .idle s
      (call (createUserNamed js username input uuid)) s := by
  refine stay_phase (calm_inserted hload) ?_
  cases username with
  | str username => exact createUser_phase hload hs (input username) uuid
  | _ =>
      refine Phases.Runs.bind ((call_ensureLoaded_phase (calm_idle hload) hs).mono ?_)
      rintro _ _ _ s₁ ⟨rfl, rfl, _⟩
      exact ⟨.idle, fun _ => .refl _⟩

theorem hashPassword_phase (hload : Loading looked knows) (password : Password) (hash : String) :
    (handlerPhases js looked knows).Runs (Starts (handlerPhases js looked knows) .idle) .idle s
      (call (hashPassword password hash)) s := by
  refine stay_phase (calm_idle hload) ?_
  cases password with
  | text value =>
      refine Phases.Runs.bind ((calm_wait (calm_idle hload) .tick).mono ?_)
      exact fun _ _ _ _ h => h
  | other short => exact ⟨.idle, fun _ => .refl _⟩

theorem createLocal_phase (hload : Loading looked knows) (jwt : Jwt)
    (username : Json) (password : Password) (email hash uuid : String) :
    (handlerPhases js looked knows).Runs ((handlerPhases js looked knows).Ends Answered) .idle s
      (createLocal js jwt username password email hash uuid) s := by
  unfold createLocal
  refine Phases.Runs.bind ((hashPassword_phase hload password hash).mono ?_)
  rintro _ _ passwordHash s₁ ⟨rfl, rfl, hs₁⟩
  refine Phases.Runs.bind ((createUserNamed_phase hload hs₁ username _ uuid).mono ?_)
  rintro _ _ result s₂ ⟨rfl, rfl, hs₂⟩
  cases result with
  | created t user =>
      exact attempt_phase (calm_inserted hload) _ fun token =>
        answer_phase (calm_inserted hload) fun _ _ _ => rfl
  | _ => exact ⟨.inserted, fun _ => .refl _⟩

theorem registerLocal_phase (hload : Loading looked knows) (jwt : Jwt)
    (body : Credentials) (hash uuid : String) :
    (handlerPhases js looked knows).Runs ((handlerPhases js looked knows).Ends Answered) .idle s
      (controllerRegisterLocal js jwt body hash uuid) s := by
  unfold controllerRegisterLocal
  split
  · exact answer_phase (calm_idle hload) nofun
  · split
    · exact answer_phase (calm_idle hload) nofun
    · exact createLocal_phase hload jwt _ _ _ _ _

theorem getUserNamed_phase (hload : Loading looked knows) (hs : knows .idle s) (username : Json) :
    (handlerPhases js looked knows).Runs (Starts (handlerPhases js looked knows) .idle) .idle s
      (call (getUserNamed js username)) s := by
  have hidle : Calm (handlerPhases js looked knows) looked .idle := calm_idle hload
  refine stay_phase hidle ?_
  cases username with
  | str username => exact (getter_phase hidle hs _).mono fun _ _ _ _ h => h.1
  | _ =>
      refine Phases.Runs.bind ((call_ensureLoaded_phase hidle hs).mono ?_)
      rintro _ _ _ s₁ ⟨rfl, rfl, _⟩
      exact ⟨.idle, fun _ => .refl _⟩

theorem verifyPassword_phase (hload : Loading looked knows) (hs : knows .idle s)
    (password : Password) (valid : Option Bool) :
    (handlerPhases js looked knows).Runs (Starts (handlerPhases js looked knows) .idle) .idle s
      (call (verifyPassword password valid)) s := by
  refine stay_phase (calm_idle hload) ?_
  cases valid with
  | none => exact ⟨rfl, rfl, hs⟩
  | some valid =>
      cases password with
      | text value =>
          refine Phases.Runs.bind ((calm_wait (calm_idle hload) .tick).mono ?_)
          exact fun _ _ _ _ h => h
      | other short => exact ⟨.idle, fun _ => .refl _⟩

theorem loginLocal_phase (hload : Loading looked knows) (hs : knows .idle s) (jwt : Jwt)
    (body : Credentials) (valid : Option Bool) :
    (handlerPhases js looked knows).Runs ((handlerPhases js looked knows).Ends Answered) .idle s
      (controllerLoginLocal js jwt body valid) s := by
  have hidle : Calm (handlerPhases js looked knows) looked .idle := calm_idle hload
  unfold controllerLoginLocal
  split
  · exact answer_phase hidle nofun
  · next username password _ =>
    refine Phases.Runs.bind ((getUserNamed_phase hload hs username).mono ?_)
    rintro _ _ user s₁ ⟨rfl, rfl, hs₁⟩
    cases user with
    | none => exact answer_phase hidle nofun
    | some user =>
        dsimp only
        split
        · refine Phases.Runs.bind ((verifyPassword_phase hload hs₁ password valid).mono ?_)
          rintro _ _ isValid s₂ ⟨rfl, rfl, hs₂⟩
          split
          · exact attempt_phase hidle _ fun token => answer_phase hidle nofun
          · exact answer_phase hidle nofun
        · exact answer_phase hidle nofun

theorem controllerCreateUser_phase (hload : Loading looked knows) (hs : knows .idle s) (jwt : Jwt)
    (username : Option Json) (authorization : Option String) (uuid : String) :
    (handlerPhases js looked knows).Runs ((handlerPhases js looked knows).Ends Answered) .idle s
      (controllerCreateUser js jwt username authorization uuid) s := by
  have hidle : Calm (handlerPhases js looked knows) looked .idle := calm_idle hload
  unfold controllerCreateUser
  split
  · exact ⟨.idle, fun _ => .refl _⟩
  · refine attempt_phase hidle _ fun token => attempt_phase hidle _ fun decodedToken => ?_
    refine Phases.Runs.bind ((createUserNamed_phase hload hs _ _ uuid).mono ?_)
    rintro _ _ result s₂ ⟨rfl, rfl, hs₂⟩
    cases result with
    | created t user => exact answer_phase (calm_inserted hload) fun _ _ _ => rfl
    | _ => exact ⟨.inserted, fun _ => .refl _⟩

theorem bootstrap_phase (hload : Loading looked knows) (hs : knows .idle s) (jwt : Jwt)
    (body : Credentials) (hash uuid : String) :
    (handlerPhases js looked knows).Runs ((handlerPhases js looked knows).Ends Answered) .idle s
      (controllerBootstrap js jwt body hash uuid) s := by
  have hidle : Calm (handlerPhases js looked knows) looked .idle := calm_idle hload
  unfold controllerBootstrap
  split
  · exact answer_phase hidle nofun
  · split
    · exact answer_phase hidle nofun
    · have hcheck : (handlerPhases js looked knows).Runs
          (Starts (handlerPhases js looked knows) .idle) .idle s (call hasUsers) s :=
        stay_phase hidle ((getter_phase hidle hs _).mono fun _ _ _ _ h => h.1)
      refine Phases.Runs.bind (hcheck.mono ?_)
      rintro _ _ usersExist s₁ ⟨rfl, rfl, hs₁⟩
      cases usersExist with
      | true => exact answer_phase hidle nofun
      | false => exact createLocal_phase hload jwt _ _ _ _ _

theorem handle_phase (hload : Loading looked knows) (jwt : Jwt) (request : AuthRequest) :
    (handlerPhases js looked knows).At Answered .idle (.ready (handle js jwt request)) := by
  intro s hs
  cases request with
  | registerLocal body hash uuid => exact registerLocal_phase hload jwt body hash uuid
  | loginLocal body valid => exact loginLocal_phase hload hs jwt body valid
  | createUser username authorization uuid =>
      exact controllerCreateUser_phase hload hs jwt username authorization uuid
  | bootstrap body hash uuid => exact bootstrap_phase hload hs jwt body hash uuid

end Handlers

end Stratus.Backend
