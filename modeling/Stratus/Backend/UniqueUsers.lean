import Stratus.Backend.AccountPhases

/-! The users of the store as requests create them beside each other.  `createUser` looks
for the name in one stretch and inserts in the next, and does not look for the id. -/
namespace Stratus.Backend

open Stratus.Lib

/-- The user that code inserts before its next await. -/
def nextUser (s : Store) (c : Async AuthAnswer) : Option Json :=
  ((c.run s).1.users[s.users.length]?).map Entry.value

/-- The task has looked for the name of the user and inserts it when it goes on. -/
def AboutToInsert (s : Store) (user : Json) : Task Request Request.Answer Store AuthAnswer → Prop
  | .ready c => nextUser s c = some user
  | .waiting _ k => ∀ x, nextUser s (k x) = some user
  | .resolved _ => False
  | .rejected _ => False

/-- A step that inserts a user: no user has its id, and no other task is about to insert one
with its name. -/
def InsertsApart (js : Unicode) (w w' : AccountWorld) : Prop :=
  ∀ i op c user, w.tasks[i]? = some (op, .ready c) → w' = w.resume i op c →
    nextUser w.shared c = some user →
    (∀ id, hasText "UserID" id ⟨0, user⟩ = true →
      ∀ e ∈ w.shared.users, hasText "UserID" id e = false) ∧
    ∀ j t other, j ≠ i → w.tasks[j]? = some t → AboutToInsert w.shared other t.2 →
      ∀ name, hasUsername js name ⟨0, user⟩ = true → hasUsername js name ⟨0, other⟩ = false

/-- The store is loaded and its users are told apart. -/
structure UniqueStore (js : Unicode) (s : Store) : Prop where
  loaded : s.storeData.isSome
  unique : UniqueUsers js s.users

/-- At most one user passes a test, also with a new one. -/
theorem at_most_one_snoc {test : Entry → Bool} {users : List Entry} {e : Entry}
    (h : ∀ {i j : Nat} {e₁ e₂ : Entry}, users[i]? = some e₁ → users[j]? = some e₂ →
      test e₁ = true → test e₂ = true → i = j)
    (hnew : test e = true → ∀ e' ∈ users, test e' = false) {i j : Nat} {e₁ e₂ : Entry}
    (hi : (users ++ [e])[i]? = some e₁) (hj : (users ++ [e])[j]? = some e₂)
    (h₁ : test e₁ = true) (h₂ : test e₂ = true) : i = j := by
  rcases getElem?_snoc_cases hi with hi' | ⟨rfl, rfl⟩ <;> rcases getElem?_snoc_cases hj with hj' | ⟨rfl, rfl⟩
  · exact h hi' hj' h₁ h₂
  · rw [hnew h₂ e₁ (List.mem_of_getElem? hi')] at h₁
    cases h₁
  · rw [hnew h₁ e₂ (List.mem_of_getElem? hj')] at h₂
    cases h₂
  · rfl

theorem UniqueUsers.snoc {js : Unicode} {users : List Entry} (h : UniqueUsers js users) {e : Entry}
    (hid : ∀ id, hasText "UserID" id e = true → ∀ e' ∈ users, hasText "UserID" id e' = false)
    (hname : ∀ name, hasUsername js name e = true → ∀ e' ∈ users, hasUsername js name e' = false) :
    UniqueUsers js (users ++ [e]) where
  ids := at_most_one_snoc h.ids (hid _)
  names := at_most_one_snoc h.names (hname _)

/-- What a task knows of the users: the name of the user it is about to insert is unused. -/
def NameKnown (js : Unicode) (p : Phase) (s : Store) : Prop :=
  s.storeData.isSome ∧
    match p with
    | .inserting user => Unused js user s.users
    | _ => True

theorem NameKnown.quiet {js : Unicode} {p : Phase} {s s' : Store} (h : NameKnown js p s)
    (hquiet : Quiet s s') : NameKnown js p s' := by
  obtain ⟨hloaded, hknown⟩ := h
  obtain ⟨hloaded', husers⟩ := hquiet hloaded
  refine ⟨hloaded', ?_⟩
  rw [husers]
  exact hknown

theorem Writes.quiet {s s' : Store} (h : Writes s s') : Quiet s s' := by
  cases h with
  | start _ _ => exact .of_storeData rfl
  | finish _ => exact .of_storeData rfl

/-- The phases when the store is loaded from the beginning. -/
def namePhases (js : Unicode) : Phases Store Phase :=
  handlerPhases js (fun _ _ => True) (NameKnown js)

theorem nextUser_of_inserts {s : Store} {c : Async AuthAnswer} {user : Json}
    (h : Inserts user s (c.run s).1) : nextUser s c = some user := by
  obtain ⟨_, _, ref, husers⟩ := h
  rw [nextUser, husers, List.getElem?_concat_length]
  rfl

/-- A task that is in the phase is about to insert. -/
theorem aboutToInsert_of_at {js : Unicode} {s : Store} {user : Json}
    {t : Task Request Request.Answer Store AuthAnswer} (hlive : t.Live)
    (hknown : NameKnown js (.inserting user) s)
    (h : (namePhases js).At Answered (.inserting user) t) : AboutToInsert s user t := by
  have hcode : ∀ {c : Async AuthAnswer},
      (namePhases js).Runs ((namePhases js).Ends Answered) (.inserting user) s c s →
      nextUser s c = some user := by
    intro c hruns
    obtain ⟨q, hmoves, _⟩ := hruns.run
    cases q with
    | inserted => exact nextUser_of_inserts (hmoves trivial)
    | idle =>
        have hnone := (hmoves trivial).1
        have hloaded := hknown.1
        rw [hnone] at hloaded
        cases hloaded
    | inserting other => exact hmoves.elim
  cases t with
  | ready c => exact hcode (h s hknown)
  | waiting request k => exact fun x => hcode (h x s hknown)
  | resolved a => exact hlive.elim
  | rejected message => exact hlive.elim

/-- A step that inserts a user. -/
theorem insert_step {js : Unicode} {w w' : AccountWorld} {i : Nat} {op : AuthRequest}
    {c : Async AuthAnswer} {user : Json} (hi : w.tasks[i]? = some (op, .ready c))
    (hresume : w' = w.resume i op c) (hapart : InsertsApart js w w')
    (hinv : UniqueStore js w.shared) (hknown : NameKnown js (.inserting user) w.shared)
    (hinserts : Inserts user w.shared w'.shared) :
    UniqueStore js w'.shared ∧ ∀ j r t, j ≠ i → w.tasks[j]? = some t → t.2.Live →
      (namePhases js).At Answered r t.2 → NameKnown js r w.shared → NameKnown js r w'.shared := by
  have hinserted := hinserts
  obtain ⟨_, hloaded, ref, husers⟩ := hinserts
  have hnext : nextUser w.shared c = some user := by
    refine nextUser_of_inserts ?_
    rw [hresume] at hinserted
    exact hinserted
  obtain ⟨hid, hothers⟩ := hapart i op c user hi hresume hnext
  refine ⟨⟨hloaded, ?_⟩, fun j r t hji hj hlive hat hr => ⟨hloaded, ?_⟩⟩
  · rw [husers]
    exact hinv.unique.snoc hid hknown.2
  · cases r with
    | inserting other =>
        have habout := hothers j t other hji hj (aboutToInsert_of_at hlive hr hat)
        change Unused js other w'.shared.users
        rw [husers]
        intro name hother e he
        rcases List.mem_append.mp he with he | he
        · exact hr.2 name hother e he
        · obtain rfl := List.mem_singleton.mp he
          by_contra huser
          rw [Bool.not_eq_false] at huser
          rw [habout name huser] at hother
          cases hother
    | _ => trivial

/-- In every run in which users are inserted apart no two users have the same id or name. -/
theorem unique_of_insertsApart (js : Unicode) (jwt : Jwt) {w : AccountWorld}
    (hw : ((accountSystem js jwt (UniqueStore js)).restrict (InsertsApart js)).Reachable w) :
    UniqueStore js w.shared := by
  have hload : Loading (fun _ _ => True) (NameKnown js) := .inl fun _ _ h => h.1
  refine (Phases.reachable (P := namePhases js) (UniqueStore js) .idle
    (fun s hs => hs) (fun s hs => ⟨hs.loaded, trivial⟩) (handle_phase hload jwt) ?_ ?_ hw).1
  · intro s s' hwrites
    have hquiet := hwrites.quiet
    refine ⟨fun hs => ?_, fun p hp => hp.quiet hquiet⟩
    obtain ⟨hloaded, husers⟩ := hquiet hs.loaded
    exact ⟨hloaded, husers ▸ hs.unique⟩
  · intro w w' i op c p q hi hresume hapart hinv hp hat hmoves
    -- a stretch that leaves the users alone
    have hsame : Quiet w.shared w'.shared → UniqueStore js w'.shared ∧
        ∀ r, NameKnown js r w.shared → NameKnown js r w'.shared := by
      intro h
      obtain ⟨hloaded, husers⟩ := h hinv.loaded
      exact ⟨⟨hloaded, husers ▸ hinv.unique⟩, fun r hr => hr.quiet h⟩
    cases p with
    | idle =>
        cases q with
        | idle =>
            obtain ⟨hinv', hknown⟩ := hsame (hmoves trivial)
            exact ⟨hinv', hknown .idle hp, fun _ r _ _ _ _ _ hr => hknown r hr⟩
        | inserting user =>
            obtain ⟨hquiet, hunused⟩ := hmoves trivial
            obtain ⟨hinv', hknown⟩ := hsame hquiet
            exact ⟨hinv', ⟨hinv'.loaded, hunused⟩, fun _ r _ _ _ _ _ hr => hknown r hr⟩
        | inserted => exact hmoves.elim
    | inserting user =>
        cases q with
        | inserted =>
            obtain ⟨hinv', hothers⟩ := insert_step hi hresume hapart hinv hp (hmoves trivial)
            exact ⟨hinv', ⟨hinv'.loaded, trivial⟩, hothers⟩
        | idle =>
            obtain ⟨hinv', hknown⟩ := hsame (hmoves trivial).2
            exact ⟨hinv', ⟨hinv'.loaded, trivial⟩, fun _ r _ _ _ _ _ hr => hknown r hr⟩
        | inserting other => exact hmoves.elim
    | inserted =>
        cases q with
        | inserted =>
            obtain ⟨hinv', hknown⟩ := hsame (hmoves trivial)
            exact ⟨hinv', hknown .inserted hp, fun _ r _ _ _ _ _ hr => hknown r hr⟩
        | idle => exact hmoves.elim
        | inserting other => exact hmoves.elim

/-- A loaded store without users. -/
def emptyStore : Store := { coldStore with storeData := some ⟨[], []⟩ }

theorem emptyStore_unique : UniqueStore ascii emptyStore := ⟨rfl, ⟨nofun, nofun⟩⟩

/-- Every token is valid and is the id of its user. -/
def plainJwt : Jwt := ⟨fun token => .ok token.userId, fun token => .ok ⟨token, none⟩⟩

def google (token username : String) : AuthRequest :=
  .createUser (some (.str username)) (some token) "uuid"

/-- What a task inserts when it goes on with the answer of the system. -/
def insertion (s : Store) : Task Request Request.Answer Store AuthAnswer → Option Json
  | .ready c => nextUser s c
  | .waiting request k => (s.answer request).bind fun x => nextUser s (k x)
  | _ => none

/-- The system answers what the task waits for. -/
def answered (s : Store) : Task Request Request.Answer Store AuthAnswer → Bool
  | .waiting request _ => (s.answer request).isSome
  | _ => true

theorem insertion_of_about {s : Store} {other : Json} {t : Task Request Request.Answer Store AuthAnswer}
    (hanswered : answered s t = true) (h : AboutToInsert s other t) : insertion s t = some other := by
  cases t with
  | ready c => exact h
  | waiting request k =>
      obtain ⟨x, hx⟩ := Option.isSome_iff_exists.mp hanswered
      rw [insertion, hx]
      exact h x
  | resolved a => exact h.elim
  | rejected message => exact h.elim

/-- The texts of two records differ under this key. -/
def differ (key : String) (text : String → String) (x y : Json) : Bool :=
  match x.field key, y.field key with
  | some (.str a), some (.str b) => text a != text b
  | _, _ => true

theorem hasText_of_differ {key id : String} {x : Json} {e : Entry}
    (hdiffer : differ key (fun text => text) x e.value = true) (h : hasText key id ⟨0, x⟩ = true) :
    hasText key id e = false := by
  unfold hasText at h ⊢
  unfold differ at hdiffer
  grind

theorem hasUsername_of_differ {js : Unicode} {name : String} {x y : Json}
    (hdiffer : differ "Username" (fun text => js.toLowerCase (js.trim text)) x y = true)
    (h : hasUsername js name ⟨0, x⟩ = true) : hasUsername js name ⟨0, y⟩ = false := by
  unfold hasUsername at h ⊢
  unfold differ at hdiffer
  grind

/-- A check that inserts users apart: no user in the store has the id of a new one, and no two tasks
would insert the same name. -/
def CheckApart (js : Unicode) (w : AccountWorld) : Prop :=
  (∀ t ∈ w.tasks, answered w.shared t.2 = true) ∧
    ∀ i < w.tasks.length, ∀ user ∈ (w.tasks[i]?).bind fun t => insertion w.shared t.2,
      (∀ e ∈ w.shared.users, differ "UserID" (fun text => text) user e.value = true) ∧
      ∀ j < w.tasks.length, j ≠ i → ∀ other ∈ (w.tasks[j]?).bind fun t => insertion w.shared t.2,
        differ "Username" (fun text => js.toLowerCase (js.trim text)) user other = true

instance (js : Unicode) (w : AccountWorld) : Decidable (CheckApart js w) :=
  inferInstanceAs (Decidable (_ ∧ _))

theorem CheckApart.insertsApart {js : Unicode} {w : AccountWorld} (h : CheckApart js w)
    (w' : AccountWorld) : InsertsApart js w w' := by
  intro i op c user hi _ huser
  have hlt := (List.getElem?_eq_some_iff.mp hi).1
  have hinsertion : user ∈ (w.tasks[i]?).bind fun t => insertion w.shared t.2 := by
    rw [hi]
    exact huser
  obtain ⟨hids, hnames⟩ := h.2 i hlt user hinsertion
  refine ⟨fun id hid e he => hasText_of_differ (hids e he) hid, ?_⟩
  intro j t other hji hj habout name hname
  have hlt' := (List.getElem?_eq_some_iff.mp hj).1
  refine hasUsername_of_differ (hnames j hlt' hji other ?_) hname
  rw [hj]
  exact insertion_of_about (h.1 t (List.mem_of_getElem? hj)) habout

/-- What the steps make of a store without users. -/
def accountsAfter (check : AccountWorld → AccountWorld → Prop) [DecidableRel check]
    (moves : List (Move AuthRequest)) : AccountWorld :=
  World.moves Store.answer (handle ascii plainJwt) Store.write check moves ⟨emptyStore, []⟩

theorem reachable_accountsAfter (check : AccountWorld → AccountWorld → Prop) [DecidableRel check]
    {allowed : AccountWorld → AccountWorld → Prop} (hcheck : ∀ w w', check w w' → allowed w w')
    {init : Store → Prop} (hinit : init emptyStore) (moves : List (Move AuthRequest)) :
    ((accountSystem ascii plainJwt init).restrict allowed).Reachable (accountsAfter check moves) :=
  World.reachable_moves answers_answer writes_write hcheck moves (.start ⟨hinit, rfl⟩)

/-- Both requests have looked for their names when the first one inserts its user, and both insert
before anything is written. -/
def bothInsert : List (Move AuthRequest) :=
  List.flatten
    [[.start (google "Bearer x" "a")], Move.turns 0 2, [.start (google "Bearer y" "b")],
      Move.turns 1 3, Move.turns 0 1, [.answer 0, .answer 1, .resume 0, .resume 1], Move.turns 0 1,
      Move.turns 1 1, [.ambient, .ambient, .ambient, .ambient], Move.turns 0 3, Move.turns 1 3]

set_option maxRecDepth 1000 in
theorem unique_bothInsert : ∃ w : AccountWorld,
    (w.shared.users.map fun e => (e.value.field "UserID", e.value.field "Username")) =
      [(some (.str "x"), some (.str "a")), (some (.str "y"), some (.str "b"))] ∧
    UniqueStore ascii w.shared := by
  have h := reachable_accountsAfter (fun w _ => CheckApart ascii w)
    (fun _ w' h => h.insertsApart w') emptyStore_unique bothInsert
  exact ⟨_, rfl, unique_of_insertsApart ascii plainJwt h⟩

/-- One request inserts its user, then the other one does. -/
def twoNames : List (Move AuthRequest) :=
  List.flatten
    [[.start (google "Bearer id" "a")], Move.turns 0 4, [.start (google "Bearer id" "b")],
      Move.turns 1 4]

/-- One token and two names: both users have the id of the token. -/
theorem same_token_twice : ¬ ∀ js jwt (w : AccountWorld),
    (accountSystem js jwt (UniqueStore js)).Reachable w → UniqueStore js w.shared := by
  intro hall
  have h := (reachable_accountsAfter (fun _ _ => True) (fun _ _ => id) emptyStore_unique
    twoNames).of_restrict
  have hsame : 0 = 1 := (hall _ _ _ h).unique.ids rfl rfl
    (show hasText "UserID" "id" _ = true from rfl) rfl
  cases hsame

end Stratus.Backend
