import Stratus.Backend.PersistReload
import Stratus.Lib.Phases

/-! The requests of `gamesController.ts` that change the games, beside each other on a store that
is loaded. -/
namespace Stratus.Backend

open Stratus.Lib

namespace CatalogClaims

/-- What the code awaits; the answer to `mkdir` is the error, if there is one, and the one to `fetch`
what is known of a game. -/
inductive Await where
  | tick
  | mkdir
  | write
  | fetch (appid : JsNumber)

def Await.Answer : Await → Type
  | .tick => Unit
  | .mkdir => Option String
  | .write => Unit
  | .fetch _ => Option Metadata

abbrev Async := Coro Await Await.Answer Records

open Coro

/-- `await f()`. -/
def call {α : Type} (f : Async α) : Async α := do
  let a ← f
  wait Await.tick
  return a

def ensureLoaded : Async Unit := return

/-- A task of `localStore.ts` that finds the store loaded does no more. -/
theorem ensureLoaded_run (s : Store) (d : StoreData) (hs : s.storeData = some d) :
    Backend.ensureLoaded.run s = (s, .resolved ()) ∧
      ensureLoaded.run d.records = (d.records, .resolved ()) := by
  obtain ⟨_⟩ := s
  cases hs
  exact ⟨rfl, rfl⟩

/-- A write that fails is only logged. -/
def persist : Async Unit := do
  match ← (wait Await.mkdir : Async (Option String)) with
  | some message => .fail message
  | none => wait Await.write

def getGameByAppId (appid : JsNumber) : Async (Option JsValue) := do
  call ensureLoaded
  return (← state).games.find? (appIdIs appid)

def createGame (input : JsValue) (uuid : Uuid) : Async JsValue := do
  call ensureLoaded
  let d ← state
  let game := gameValue input uuid
  put { d with games := d.games ++ [game] }
  call persist
  return game

def addGameToCatalog (appid : JsNumber) (name installdir : String) (metadata : Option Metadata)
    (uuid : Uuid) : Async JsValue := do
  call ensureLoaded
  let d ← state
  match d.games.find? (appIdIs appid) with
  | some existing => return existing
  | none =>
      let game := catalogValue appid name installdir metadata uuid
      put { d with games := d.games ++ [game] }
      call persist
      return game

def deleteGame (gameId : String) : Async Bool := do
  call ensureLoaded
  match (← state).deleteGame gameId with
  | none => return false
  | some d =>
      put d
      call persist
      return true

/-- The answers of the handlers; what they throw is answered with 500. -/
inductive GameAnswer where
  | found (message : String) (game : JsValue)
  | created (game : JsValue)
  | deleted
  | error (status : Nat) (message : String)

variable (env : Environment)

def claimNumber (appidNum : JsNumber) (uuid : Uuid) : Async GameAnswer := do
  match ← call (getGameByAppId appidNum) with
  | some existing => return .found "Game already in catalog" existing
  | none =>
      let metadata : Option Metadata ← wait (Await.fetch appidNum)
      let name := orText (metadata.bind Metadata.title) ("Game " ++ env.numberText appidNum)
      let game ← call (addGameToCatalog appidNum name "" metadata uuid)
      return .created game

def claimedAppId (appid : String) : Option JsNumber := JsNumber.parseInt (env.js.trim appid).toList

def controllerClaimGame (appid : String) (uuid : Uuid) : Async GameAnswer :=
  if appid = "" then return .error 400 "AppID is required"
  else
    match claimedAppId env appid with
    | none => return .error 400 "Invalid AppID"
    | some appidNum => claimNumber env appidNum uuid

def controllerCreateGame (body : JsValue) (uuid : Uuid) : Async GameAnswer :=
  match (body.field "title").filter JsValue.truthy with
  | none => return .error 400 "Game title is required"
  | some title => do
      let game ← call (createGame (createGameInput body title) uuid)
      return .created game

def controllerDeleteGame (id : String) : Async GameAnswer :=
  if id = "" then return .error 400 "Game ID is required"
  else do
    let success ← call (deleteGame id)
    return if success then .deleted else .error 404 "Game not found"

inductive GameRequest where
  | claim (appid : String) (uuid : Uuid)
  | create (body : JsValue) (uuid : Uuid)
  | delete (id : String)

def handle : GameRequest → Async GameAnswer
  | .claim appid uuid => controllerClaimGame env appid uuid
  | .create body uuid => controllerCreateGame body uuid
  | .delete id => controllerDeleteGame id

/-- No two games have the same appid, unless it is `undefined`. -/
def UniqueAppIds (games : List JsValue) : Prop :=
  games.Pairwise fun g g' => ∀ appid, g.field "appid" = some appid → g'.field "appid" ≠ some appid

abbrev CatalogWorld := World Await Await.Answer Records GameRequest GameAnswer

/-- Whatever is awaited is answered at some time, and in any way. -/
def catalogSystem : System CatalogWorld :=
  World.system (fun _ _ _ => True) (handle env) (fun _ _ => False) fun d => UniqueAppIds d.games

/-- The game that a request was answered with. -/
def GameAnswer.game : GameAnswer → Option JsValue
  | .found _ game => some game
  | .created game => some game
  | _ => none

/-! ### What each request does to the games -/

/-- The games are left alone, or one is added that has this appid, which no other has. -/
def Adds (appid : Option JsNumber) (d d' : Records) : Prop :=
  d'.users = d.users ∧ (d'.games = d.games ∨ ∃ game, d'.games = d.games ++ [game] ∧
    game.field "appid" = appid.map .num ∧
    ∀ number, appid = some number → ∀ g ∈ d.games, appIdIs number g = false)

/-- The games are left alone, or one is removed. -/
def Removes (d d' : Records) : Prop :=
  d'.users = d.users ∧ (d'.games = d.games ∨ ∃ test : JsValue → Bool, d'.games = d.games.eraseP test)

/-- A claim of what is no number does nothing at all. -/
def Guarantee : GameRequest → Records → Records → Prop
  | .claim appid _, d, d' => d' = d ∨ (claimedAppId env appid).isSome ∧ Adds (claimedAppId env appid) d d'
  | .create _ _, d, d' => Adds none d d'
  | .delete _, d, d' => Removes d d'

/-- A claim is answered with a game that has the appid. -/
def Claimed : GameRequest → GameAnswer → Prop
  | .claim appid _, answer => ∀ game ∈ answer.game, ∃ number,
      claimedAppId env appid = some number ∧ game.field "appid" = some (.num number)
  | _, _ => True

theorem UniqueAppIds.snoc {games : List JsValue} {game : JsValue} {appid : Option JsNumber}
    (h : UniqueAppIds games) (hfield : game.field "appid" = appid.map .num)
    (hnew : ∀ number, appid = some number → ∀ g ∈ games, appIdIs number g = false) :
    UniqueAppIds (games ++ [game]) := by
  refine List.pairwise_append.mpr ⟨h, List.pairwise_singleton _ _, ?_⟩
  intro g hg game' hgame value hsome hsame
  obtain rfl := List.mem_singleton.mp hgame
  rw [hfield] at hsame
  obtain ⟨number, hnumber, rfl⟩ := Option.map_eq_some_iff.mp hsame
  have hnot := hnew number hnumber g hg
  simp [appIdIs, hsome] at hnot

theorem Adds.unique {appid : Option JsNumber} {d d' : Records} (h : UniqueAppIds d.games)
    (hadds : Adds appid d d') : UniqueAppIds d'.games := by
  rcases hadds.2 with heq | ⟨game, heq, hfield, hnew⟩
  · rw [heq]
    exact h
  · rw [heq]
    exact h.snoc hfield hnew

theorem Guarantee.unique {request : GameRequest} {d d' : Records} (h : UniqueAppIds d.games)
    (hguarantee : Guarantee env request d d') : UniqueAppIds d'.games := by
  cases request with
  | claim appid uuid =>
      rcases hguarantee with rfl | ⟨-, hadds⟩
      · exact h
      · exact hadds.unique h
  | create body uuid => exact Adds.unique h hguarantee
  | delete id =>
      rcases hguarantee.2 with heq | ⟨test, heq⟩
      · rw [heq]
        exact h
      · rw [heq]
        exact h.sublist (List.eraseP_sublist ..)

/-! ### The code -/

section Code

variable {G : Records → Records → Prop} {d d₀ : Records}

/-- Stretches that begin with appids told apart. -/
def stretches (G : Records → Records → Prop) : Phases Records Unit :=
  .guarantee (fun d => UniqueAppIds d.games) G

/-- At the beginning of a stretch. -/
def Begins {α : Type} (r : α → Prop) (_ : Unit) (d₀ : Records) (a : α) (d : Records) : Prop :=
  d₀ = d ∧ UniqueAppIds d.games ∧ r a

theorem begins_wait (request : Await) (hG : G d₀ d) :
    (stretches G).Runs (Begins fun _ => True) () d₀ (wait request : Async _) d :=
  ⟨(), hG, fun _ _ hunique => ⟨rfl, hunique, trivial⟩⟩

theorem begins_call {α : Type} {f : Async α} {r : α → Prop}
    (h : (stretches G).Runs (fun _ d₀ a d => G d₀ d ∧ r a) () d₀ f d) :
    (stretches G).Runs (Begins r) () d₀ (call f) d := by
  refine Phases.Runs.bind (h.mono ?_)
  rintro _ d₀ a d ⟨hG, ha⟩
  exact Phases.Runs.bind ((begins_wait .tick hG).mono fun _ _ _ _ h => ⟨h.1, h.2.1, ha⟩)

theorem begins_ensureLoaded (hG : G d₀ d) :
    (stretches G).Runs (Begins fun _ => True) () d₀ (call ensureLoaded) d :=
  begins_call (r := fun _ => True) ⟨hG, trivial⟩

theorem begins_persist (hrefl : ∀ d, G d d) (hG : G d₀ d) :
    (stretches G).Runs (Begins fun _ => True) () d₀ (call persist) d := by
  refine begins_call (Phases.Runs.bind ((begins_wait .mkdir hG).mono ?_))
  rintro _ d error _ ⟨rfl, -, -⟩
  cases (error : Option String) with
  | some message => exact ⟨(), hrefl d⟩
  | none =>
      refine (begins_wait .write (hrefl _)).mono ?_
      rintro _ d _ _ ⟨rfl, -, -⟩
      exact ⟨hrefl _, trivial⟩

/-- A task that has nothing left to do. -/
theorem ends_of {final : GameAnswer → Prop} {answer : GameAnswer} (hG : G d₀ d) (h : final answer) :
    (stretches G).Runs ((stretches G).Ends fun _ => final) () d₀ (return answer : Async _) d :=
  ⟨(), hG, h⟩

end Code

theorem Adds.refl (appid : Option JsNumber) (d : Records) : Adds appid d d := ⟨rfl, .inl rfl⟩

theorem Guarantee.refl (request : GameRequest) (d : Records) : Guarantee env request d d := by
  cases request with
  | claim appid uuid => exact .inl rfl
  | create body uuid => exact Adds.refl none d
  | delete id => exact ⟨rfl, .inl rfl⟩

theorem find?_none {appid : JsNumber} {games : List JsValue}
    (h : games.find? (appIdIs appid) = none) : ∀ g ∈ games, appIdIs appid g = false := by
  intro g hg
  simpa using List.find?_eq_none.mp h g hg

theorem field_of_appIdIs {appid : JsNumber} {game : JsValue} (h : appIdIs appid game = true) :
    game.field "appid" = some (.num appid) := by
  unfold appIdIs at h
  split at h
  · next value hvalue =>
    rw [hvalue, of_decide_eq_true h]
  · cases h

/-- The second search and the insertion are one stretch. -/
theorem begins_addGameToCatalog {G : Records → Records → Prop} {d₀ d : Records} {number : JsNumber}
    (hrefl : ∀ d, G d d) (hadds : ∀ d d', Adds (some number) d d' → G d d') (hG : G d₀ d)
    (name installdir : String) (metadata : Option Metadata) (uuid : Uuid) :
    (stretches G).Runs (Begins fun game => game.field "appid" = some (.num number)) () d₀
      (call (addGameToCatalog number name installdir metadata uuid)) d := by
  refine begins_call ?_
  unfold addGameToCatalog
  refine Phases.Runs.bind ((begins_ensureLoaded hG).mono ?_)
  rintro _ d _ _ ⟨rfl, -, -⟩
  change (stretches G).Runs _ () d (match d.games.find? (appIdIs number) with
    | some existing => _
    | none => _) d
  split
  · next existing hfound => exact ⟨hrefl d, field_of_appIdIs (List.find?_some hfound)⟩
  · next hnone =>
    change (stretches G).Runs _ () d (call persist >>= _)
      { d with games := d.games ++ [catalogValue number name installdir metadata uuid] }
    refine Phases.Runs.bind ((begins_persist hrefl (hadds _ _ ?_)).mono ?_)
    · refine ⟨rfl, .inr ⟨catalogValue number name installdir metadata uuid, rfl, rfl, ?_⟩⟩
      rintro _ ⟨⟩
      exact find?_none hnone
    · rintro _ d _ _ ⟨rfl, -, -⟩
      exact ⟨hrefl _, rfl⟩

theorem claim_at (appid : String) (uuid : Uuid) :
    (stretches (Guarantee env (.claim appid uuid))).At (fun _ => Claimed env (.claim appid uuid)) ()
      (.ready (controllerClaimGame env appid uuid)) := by
  have hrefl (d : Records) : Guarantee env (.claim appid uuid) d d := .refl _ _ d
  intro d hunique
  unfold controllerClaimGame
  split
  · exact ends_of (hrefl d) nofun
  · split
    · exact ends_of (hrefl d) nofun
    · next number hnumber =>
      have hadds (d d' : Records) (h : Adds (some number) d d') : Guarantee env (.claim appid uuid) d d' := by
        refine .inr ?_
        rw [hnumber]
        exact ⟨rfl, h⟩
      unfold claimNumber
      refine Phases.Runs.bind ((begins_call (r := fun existing => ∀ game ∈ existing,
        game.field "appid" = some (.num number)) ?_).mono ?_)
      · unfold getGameByAppId
        refine Phases.Runs.bind ((begins_ensureLoaded (hrefl d)).mono ?_)
        rintro _ d _ _ ⟨rfl, -, -⟩
        exact ⟨hrefl d, fun game hgame => field_of_appIdIs (List.find?_some hgame)⟩
      · rintro _ d found _ ⟨rfl, -, hfound⟩
        cases found with
        | some existing =>
            refine ends_of (hrefl d) ?_
            rintro game ⟨⟩
            exact ⟨number, hnumber, hfound _ rfl⟩
        | none =>
            refine Phases.Runs.bind ((begins_wait (.fetch number) (hrefl d)).mono ?_)
            rintro _ d metadata _ ⟨rfl, -, -⟩
            refine Phases.Runs.bind ((begins_addGameToCatalog hrefl hadds (hrefl d) _ _ _ _).mono ?_)
            rintro _ d game _ ⟨rfl, -, hgame⟩
            refine ends_of (hrefl d) ?_
            rintro game ⟨⟩
            exact ⟨number, hnumber, hgame⟩

/-- A game that is created has no appid. -/
theorem appid_gameValue (body title : JsValue) (uuid : Uuid) :
    (gameValue (createGameInput body title) uuid).field "appid" = none := by
  rw [gameValue, (field_createGameInput body title).2.1]
  cases (createGameInput body title).field "installdir" with
  | none => rfl
  | some installdir => rfl

theorem create_at (body : JsValue) (uuid : Uuid) :
    (stretches (Guarantee env (.create body uuid))).At (fun _ => Claimed env (.create body uuid)) ()
      (.ready (controllerCreateGame body uuid)) := by
  have hrefl (d : Records) : Guarantee env (.create body uuid) d d := .refl _ _ d
  intro d hunique
  unfold controllerCreateGame
  split
  · exact ends_of (hrefl d) trivial
  · next title htitle =>
    refine Phases.Runs.bind ((begins_call (r := fun _ => True) ?_).mono ?_)
    · unfold createGame
      refine Phases.Runs.bind ((begins_ensureLoaded (hrefl d)).mono ?_)
      rintro _ d _ _ ⟨rfl, -, -⟩
      change (stretches _).Runs _ () d (call persist >>= _)
        { d with games := d.games ++ [gameValue (createGameInput body title) uuid] }
      refine Phases.Runs.bind ((begins_persist hrefl ?_).mono ?_)
      · exact ⟨rfl, .inr ⟨gameValue (createGameInput body title) uuid, rfl, appid_gameValue body title uuid, nofun⟩⟩
      · rintro _ d _ _ ⟨rfl, -, -⟩
        exact ⟨hrefl d, trivial⟩
    · rintro _ d game _ ⟨rfl, -, -⟩
      exact ends_of (hrefl d) trivial

theorem delete_at (id : String) :
    (stretches (Guarantee env (.delete id))).At (fun _ => Claimed env (.delete id)) ()
      (.ready (controllerDeleteGame id)) := by
  have hrefl (d : Records) : Guarantee env (.delete id) d d := .refl _ _ d
  intro d hunique
  unfold controllerDeleteGame
  split
  · exact ends_of (hrefl d) trivial
  · refine Phases.Runs.bind ((begins_call (r := fun _ => True) ?_).mono ?_)
    · unfold deleteGame
      refine Phases.Runs.bind ((begins_ensureLoaded (hrefl d)).mono ?_)
      rintro _ d _ _ ⟨rfl, -, -⟩
      change (stretches _).Runs _ () d (match d.deleteGame id with
        | none => _
        | some d' => _) d
      split
      · exact ⟨hrefl d, trivial⟩
      · next d' hdelete =>
        change (stretches _).Runs _ () d (call persist >>= _) d'
        refine Phases.Runs.bind ((begins_persist hrefl ?_).mono ?_)
        · unfold Records.deleteGame at hdelete
          split at hdelete
          · cases hdelete
            exact ⟨rfl, .inr ⟨gameIdIs id, rfl⟩⟩
          · cases hdelete
        · rintro _ d _ _ ⟨rfl, -, -⟩
          exact ⟨hrefl d, trivial⟩
    · rintro _ d success _ ⟨rfl, -, -⟩
      exact ends_of (hrefl d) trivial

/-! ### All runs -/

theorem handle_at (request : GameRequest) :
    (stretches (Guarantee env request)).At (fun _ => Claimed env request) () (.ready (handle env request)) := by
  cases request with
  | claim appid uuid => exact claim_at env appid uuid
  | create body uuid => exact create_at env body uuid
  | delete id => exact delete_at env id

theorem catalog_at {w : CatalogWorld} (hw : (catalogSystem env).Reachable w) :
    UniqueAppIds w.shared.games ∧
      ∀ t ∈ w.tasks, (stretches (Guarantee env t.1)).At (fun _ => Claimed env t.1) () t.2 :=
  Phases.guarantee_reachable (fun _ h => h) (handle_at env) (fun _ _ _ h hg => hg.unique env h)
    (fun _ _ h => h.elim) hw

/-- However requests take turns, no two games have one appid; a claim that succeeds is answered with a
game that has its appid, and all that a claim does to the games is to add such a game. -/
theorem claims_unique {w : CatalogWorld} (hw : (catalogSystem env).Reachable w) :
    UniqueAppIds w.shared.games ∧
    (∀ appid uuid answer game, (.claim appid uuid, .resolved answer) ∈ w.tasks → answer.game = some game →
      ∃ number, claimedAppId env appid = some number ∧ game.field "appid" = some (.num number)) ∧
    ∀ (i : Nat) appid uuid c, w.tasks[i]? = some (.claim appid uuid, .ready c) →
      (w.resume i (.claim appid uuid) c).shared.users = w.shared.users ∧
      ((w.resume i (.claim appid uuid) c).shared.games = w.shared.games ∨
        ∃ game number, (w.resume i (.claim appid uuid) c).shared.games = w.shared.games ++ [game] ∧
          claimedAppId env appid = some number ∧ game.field "appid" = some (.num number)) := by
  obtain ⟨hunique, htasks⟩ := catalog_at env hw
  refine ⟨hunique, fun appid uuid answer game hmem hgame => htasks _ hmem game hgame,
    fun i appid uuid c hi => ?_⟩
  obtain ⟨_, hguarantee, -⟩ := (htasks _ (List.mem_of_getElem? hi) _ hunique).run
  rcases hguarantee with hsame | ⟨hsome, husers, hgames⟩
  · exact ⟨congrArg Records.users hsame, .inl (congrArg Records.games hsame)⟩
  · refine ⟨husers, hgames.imp id ?_⟩
    rintro ⟨game, heq, hfield, -⟩
    obtain ⟨number, hnumber⟩ := Option.isSome_iff_exists.mp hsome
    rw [hnumber] at hfield
    exact ⟨game, number, heq, hnumber, hfield⟩

def Await.answer : (request : Await) → Option request.Answer
  | .tick => some ()
  | .mkdir => some none
  | .write => some ()
  | .fetch _ => some none

/-- Two claims of one game go on in turn. -/
def twoClaims : List (Move GameRequest) :=
  [.start (.claim "440" ⟨"first", by decide⟩), .start (.claim "440" ⟨"second", by decide⟩)] ++
    (List.replicate 9 [.resume 0, .resume 1, .answer 0, .answer 1]).flatten

/-- What the steps make of a store without games. -/
def catalogAfter (moves : List (Move GameRequest)) : CatalogWorld :=
  World.moves (fun _ => Await.answer) (handle seeded) (fun _ => none) (fun _ _ => True) moves ⟨⟨[], []⟩, []⟩

theorem reachable_catalogAfter (moves : List (Move GameRequest)) :
    ((catalogSystem seeded).restrict fun _ _ => True).Reachable (catalogAfter moves) :=
  World.reachable_moves (fun _ _ _ _ => trivial) (fun _ _ => nofun) (fun _ _ => id) moves
    (.start ⟨List.Pairwise.nil, rfl⟩)

theorem twoClaims_unique : (catalogAfter twoClaims).shared.games.length = 1 ∧
    UniqueAppIds (catalogAfter twoClaims).shared.games := by
  have hlength : (catalogAfter twoClaims).shared.games.length = 1 := by
    decide +kernel
  exact ⟨hlength, (claims_unique seeded (reachable_catalogAfter twoClaims).of_restrict).1⟩

end CatalogClaims

end Stratus.Backend
