import Stratus.Backend.StoreValidation
import Stratus.Lib.Coroutine

/-! `localStore.ts`: the store in memory, its file and the write queue.  Operations give
way to each other at their awaits. -/
namespace Stratus.Backend

open Stratus.Lib

/-- An object in memory; `ref` is its identity. -/
structure Entry where
  ref : Nat
  value : Json

inductive Table where
  | users
  | games
deriving DecidableEq

def Table.key : Table → String
  | .users => "users"
  | .games => "games"

structure StoreData where
  users : List Entry
  games : List Entry

namespace StoreData

def table (d : StoreData) : Table → List Entry
  | .users => d.users
  | .games => d.games

def push (d : StoreData) : Table → Entry → StoreData
  | .users, e => { d with users := d.users ++ [e] }
  | .games, e => { d with games := d.games ++ [e] }

/-- What `JSON.stringify` writes. -/
def toJson (d : StoreData) : Json :=
  .obj [("users", .arr (d.users.map Entry.value)), ("games", .arr (d.games.map Entry.value))]

end StoreData

/-- The content of a file, as `JSON.parse` sees it; `none` is not JSON. -/
abbrev Text := Option Json

/-- The data file.  A file that is being written may be read with any content. -/
inductive File where
  | absent
  | content (text : Text)
  | torn

inductive Path where
  | store
  | seed

/-- What the code awaits: a promise that is resolved, the file system, or the turn of a
write to be done. -/
inductive Request where
  | tick
  | mkdir
  | access (path : Path)
  | readFile (path : Path)
  | turn (ticket : Nat)

def Request.Answer : Request → Type
  | .access _ => Bool
  | .readFile _ => Text
  | _ => Unit

/-- The module's variables and the files.  `writeQueue` is a chain of `tickets` writes of
which `written` are done; `writing` is the text of the one being done.  `calls` has for
each call of `persist` its place in the chain, once it has one.  `deleted` and `loads` are
the history: what `deleteGame` has removed, and how often `ensureLoaded` has assigned. -/
structure Store where
  storeData : Option StoreData
  file : File
  seed : Option Text
  tickets : Nat
  written : Nat
  writing : Option Json
  calls : List (Option Nat)
  fresh : Nat
  deleted : List Nat
  loads : Nat

abbrev Async := Coro Request Request.Answer Store

open Coro

def tick : Async Unit := wait Request.tick

def mkdir : Async Unit := wait Request.mkdir

def readFile (path : Path) : Async Text := wait (Request.readFile path)

/-- `await f()`: the caller goes on in a later turn. -/
def call {α : Type} (f : Async α) : Async α := do
  let a ← f
  tick
  return a

/-- `storeData!`. -/
def loaded : Async StoreData := do
  match (← state).storeData with
  | some d => return d
  | none => .fail "Cannot read properties of null"

def pathExists (path : Path) : Async Bool := wait (Request.access path)

def seedGames : Text → List Json
  | some (.arr parsed) =>
      (parsed.filter fun g => (g.field "GameID").any Json.isString).map
        (Json.withMember "source" (.str "seed"))
  | _ => []

def readSeedGames : Async (List Json) := do
  if ← call (pathExists .seed) then
    return seedGames (← readFile .seed)
  else return []

def persist : Async Unit := do
  let s ← state
  match s.storeData with
  | none => return
  | some _ =>
      put { s with calls := s.calls ++ [none] }
      mkdir
      let s' ← state
      put
        { s' with
          tickets := s'.tickets + 1
          calls := s'.calls.set s.calls.length (some s'.tickets) }
      wait (Request.turn s'.tickets)

/-- Objects for the records of a text. -/
def entries (fresh : Nat) (values : List Json) : List Entry :=
  values.zipIdx.map fun value => ⟨fresh + value.2, value.1⟩

/-- The assignments to `storeData` in `ensureLoaded`. -/
def Store.assign (s : Store) (users games : List Json) : Store :=
  { s with
    storeData := some
      { users := entries s.fresh users
        games := entries (s.fresh + users.length) games }
    fresh := s.fresh + users.length + games.length
    loads := s.loads + 1 }

def assign (users games : List Json) : Async Unit := do
  put ((← state).assign users games)

def ensureLoaded : Async Unit := do
  if (← state).storeData.isSome then return
  mkdir
  if ← call (pathExists .store) then
    match ← readFile .store with
    | none =>
        assign [] (← call readSeedGames)
        call persist
    | some parsed =>
        if (validateStoreData parsed).valid then
          assign (Json.items (parsed.field "users")) (Json.items (parsed.field "games"))
        else
          match parsed with
          | .null => .fail "Cannot read properties of null"
          | _ =>
              assign
                ((Json.items (parsed.field "users")).filter fun u => (validateUserRecord u).valid)
                ((Json.items (parsed.field "games")).filter fun g => (validateGameRecord g).valid)
              call persist
  else
    assign [] (← call readSeedGames)
    call persist

/-! ### Operations -/

/-- `String.prototype.trim` and `toLowerCase`. -/
structure Unicode where
  trim : String → String
  toLowerCase : String → String

/-- The test `record[key] === text`. -/
def hasText (key text : String) (e : Entry) : Bool :=
  match e.value.field key with
  | some (.str value) => value = text
  | _ => false

def hasAppId (appid : Rat) (e : Entry) : Bool :=
  match e.value.field "appid" with
  | some (.num value) => value = appid
  | _ => false

def hasUsername (js : Unicode) (normalized : String) (e : Entry) : Bool :=
  match e.value.field "Username" with
  | some (.str value) => js.toLowerCase (js.trim value) = normalized
  | _ => false

inductive AuthProvider where
  | google
  | local

structure NewUser where
  userId : Option String
  username : String
  email : Option String
  authProvider : AuthProvider
  passwordHash : Option String

structure DiscoveredGame where
  appid : Rat
  name : String
  installdir : String

structure Metadata where
  title : Option String
  description : Option String
  shortDescription : Option String
  genres : Option (List String)
  developer : Option String
  publisher : Option String
  screenshots : Option (List String)
  headerImage : Option String

/-- `value || other` on strings. -/
def orText (value : Option String) (other : String) : String :=
  match value with
  | some value => if value = "" then other else value
  | none => other

def userRecord (input : NewUser) (username uuid : String) : Json :=
  .object
    [("UserID", some (.str (orText input.userId uuid))),
      ("Username", some (.str username)),
      ("Email", some (.str (orText input.email ""))),
      ("AuthProvider", some (.str (match input.authProvider with
        | .google => "google"
        | .local => "local"))),
      ("PasswordHash", input.passwordHash.map .str)]

/-- The record of `createGame`, whose input is a JSON object. -/
def gameRecord (input : Json) (uuid : String) : Json :=
  .object
    [("GameID", some (Json.or (input.field "GameID") (.str uuid))),
      ("appid", input.field "appid"),
      ("source", some (Json.or (input.field "source") (.str "manual"))),
      ("installdir", input.field "installdir"),
      ("developer", some (Json.or (input.field "developer") (.str "Unknown"))),
      ("genres", some (Json.or (input.field "genres") (.arr []))),
      ("lDescript", some (Json.or (input.field "lDescript") (.str ""))),
      ("s3", some (Json.or (input.field "s3") (.arr []))),
      ("sDescript", some (Json.or (input.field "sDescript")
        (Json.or (input.field "title") (.str "")))),
      ("title", some (Json.or (input.field "title") (.str "Unknown Game")))]

/-- The pictures of a game in the catalog: a screenshot, else the header image. -/
def pictures (metadata : Option Metadata) : List String :=
  match (metadata.bind Metadata.screenshots).getD [] with
  | picture :: _ => [picture]
  | [] =>
      match metadata.bind Metadata.headerImage with
      | some picture => if picture = "" then [] else [picture]
      | none => []

def catalogRecord (discovered : DiscoveredGame) (metadata : Option Metadata) (uuid : String) : Json :=
  .object
    [("GameID", some (.str uuid)),
      ("appid", some (.num discovered.appid)),
      ("source", some (.str "steam")),
      ("installdir", some (.str discovered.installdir)),
      ("developer", some (.str (orText (metadata.bind Metadata.developer)
        (orText (metadata.bind Metadata.publisher) "Unknown")))),
      ("genres", some (.arr (((metadata.bind Metadata.genres).getD []).map .str))),
      ("lDescript", some (.str (orText (metadata.bind Metadata.description) ""))),
      ("s3", some (.arr ((pictures metadata).map .str))),
      ("sDescript", some (.str (orText (metadata.bind Metadata.shortDescription)
        (orText (metadata.bind Metadata.title) discovered.name)))),
      ("title", some (.str (orText (metadata.bind Metadata.title) discovered.name)))]

def push (t : Table) (value : Json) : Async Entry := do
  let d ← loaded
  let s ← state
  put { s with storeData := some (d.push t ⟨s.fresh, value⟩), fresh := s.fresh + 1 }
  return ⟨s.fresh, value⟩

/-- The operations; `uuid` is what `randomUUID` gives if it is called. -/
inductive Op where
  | getAllGames
  | getGameById (gameId : String)
  | getUserById (id : String)
  | getUserByUsername (username : String)
  | hasUsers
  | createUser (input : NewUser) (uuid : String)
  | createGame (input : Json) (uuid : String)
  | addGameToCatalog (discovered : DiscoveredGame) (metadata : Option Metadata) (uuid : String)
  | getAllGamesWithSource
  | deleteGame (gameId : String)
  | getGameByAppId (appid : Rat)

inductive Result where
  | records (found : List Entry)
  | record (found : Option Entry)
  | flag (value : Bool)
  /-- The record that a creating operation resolves to. -/
  | created (t : Table) (e : Entry)

section Operations

variable (js : Unicode)

/-- A getter: what it returns is read off the store. -/
def getter {α : Type} (read : StoreData → α) : Async α := do
  call ensureLoaded
  return read (← loaded)

def getUserByUsername (username : String) : Async (Option Entry) :=
  getter fun d => d.users.find? (hasUsername js (js.toLowerCase (js.trim username)))

def createUser (input : NewUser) (uuid : String) : Async Result := do
  call ensureLoaded
  let username := js.trim input.username
  if username = "" then .fail "Username is required"
  else
    match ← call (getUserByUsername js username) with
    | some _ => .fail "Username already exists"
    | none =>
        let user ← push .users (userRecord input username uuid)
        call persist
        return .created .users user

def createGame (input : Json) (uuid : String) : Async Result := do
  call ensureLoaded
  let game ← push .games (gameRecord input uuid)
  call persist
  return .created .games game

def addGameToCatalog (discovered : DiscoveredGame) (metadata : Option Metadata) (uuid : String) :
    Async Result := do
  call ensureLoaded
  match (← loaded).games.find? (hasAppId discovered.appid) with
  | some existing => return .created .games existing
  | none =>
      let game ← push .games (catalogRecord discovered metadata uuid)
      call persist
      return .created .games game

def deleteGame (gameId : String) : Async Result := do
  call ensureLoaded
  let d ← loaded
  match d.games.find? (hasText "GameID" gameId) with
  | none => return .flag false
  | some game =>
      let s ← state
      put
        { s with
          storeData := some { d with games := d.games.eraseP (hasText "GameID" gameId) }
          deleted := s.deleted ++ [game.ref] }
      call persist
      return .flag true

def code : Op → Async Result
  | .getAllGames => return .records (← getter fun d => d.games)
  | .getGameById gameId => return .record (← getter fun d => d.games.find? (hasText "GameID" gameId))
  | .getUserById id => return .record (← getter fun d => d.users.find? (hasText "UserID" id))
  | .getUserByUsername username => return .record (← getUserByUsername js username)
  | .hasUsers => return .flag (← getter fun d => !d.users.isEmpty)
  | .createUser input uuid => createUser js input uuid
  | .createGame input uuid => createGame input uuid
  | .addGameToCatalog discovered metadata uuid => addGameToCatalog discovered metadata uuid
  | .getAllGamesWithSource => return .records (← getter fun d => d.games)
  | .deleteGame gameId => deleteGame gameId
  | .getGameByAppId appid => return .record (← getter fun d => d.games.find? (hasAppId appid))

end Operations

/-! ### The system -/

/-- How the system answers.  Nothing removes the data file. -/
def answers (s : Store) : (request : Request) → request.Answer → Prop
  | .tick, _ => True
  | .mkdir, _ => True
  | .access .store, found => found = (match s.file with
      | .absent => false
      | _ => true)
  | .access .seed, found => found = s.seed.isSome
  | .readFile .store, text => (match s.file with
      | .absent => False
      | .content content => text = content
      | .torn => True)
  | .readFile .seed, text => s.seed = some text
  | .turn ticket, _ => ticket < s.written

/-- The callbacks in `writeQueue`: each takes its text from `storeData` when it is its
turn, and its write succeeds. -/
inductive Writes : Store → Store → Prop where
  | start {s : Store} : s.writing = none → s.written < s.tickets →
      Writes s
        { s with
          writing := some (match s.storeData with
            | some d => d.toJson
            | none => .null)
          file := .torn }
  | finish {s : Store} {text : Json} : s.writing = some text →
      Writes s
        { s with
          file := .content (some text)
          writing := none
          written := s.written + 1 }

/-- The store before it is loaded, with any files. -/
structure Store.Unloaded (s : Store) : Prop where
  storeData : s.storeData = none
  file : s.file ≠ .torn
  tickets : s.tickets = 0
  written : s.written = 0
  writing : s.writing = none
  calls : s.calls = []
  deleted : s.deleted = []

abbrev StoreWorld := World Request Request.Answer Store Op Result

def storeSystem (js : Unicode) : System StoreWorld :=
  World.system answers (code js) Writes Store.Unloaded

/-- No call of `persist` is waiting for its write. -/
def Store.NothingPending (s : Store) : Prop :=
  s.writing = none ∧ ∀ place ∈ s.calls, ∃ ticket, place = some ticket ∧ ticket < s.written

/-- The data file holds a record. -/
def Store.InFile (s : Store) (t : Table) (value : Json) : Prop :=
  ∃ text, s.file = .content (some text) ∧ value ∈ Json.items (text.field t.key)

/-- A record that an operation has resolved to is there for every read, until it is
deleted, and in the file when nothing is left to be written. -/
def Durable (w : StoreWorld) : Prop :=
  ∀ op t e, (op, Task.resolved (.created t e)) ∈ w.tasks → e.ref ∉ w.shared.deleted →
    (∃ d, w.shared.storeData = some d ∧ e ∈ d.table t) ∧
    (w.shared.NothingPending → w.shared.InFile t e.value)

/-- A step in which `ensureLoaded` does not assign to a store that is loaded. -/
def LoadsOnce (s s' : Store) : Prop := s.storeData.isSome → s'.loads = s.loads

end Stratus.Backend
