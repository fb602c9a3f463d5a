import Stratus.Backend.Accounts
import Stratus.Lib.JsValue

/-! What a fresh process loads from the file that `persist` wrote.  The requests come one after
another; the records are the values of the program, which JSON need not keep. -/
namespace Stratus.Backend

open Stratus.Lib

/-- `storeData`. -/
structure Records where
  users : List JsValue
  games : List JsValue

/-- What `JSON.stringify` writes. -/
def Records.toJson (d : Records) : Json :=
  .obj [("users", .arr (d.users.map JsValue.toJson)), ("games", .arr (d.games.map JsValue.toJson))]

/-- What `JSON.parse` gives. -/
def Records.ofJson (users games : List Json) : Records :=
  ⟨users.map JsValue.ofJson, games.map JsValue.ofJson⟩

/-- The records of the objects in memory. -/
def StoreData.records (d : StoreData) : Records :=
  .ofJson (d.users.map Entry.value) (d.games.map Entry.value)

/-- A process, which has loaded the store or not, and the data file, if there is one. -/
structure Process where
  storeData : Option Records
  file : Option Text

/-- A string that is not empty, from `randomUUID`. -/
structure Uuid where
  text : String
  nonempty : text ≠ ""

/-- What the handlers use that is not theirs: the methods of strings, `String(number)`, and the
file with the games of a new store. -/
structure Environment where
  js : Unicode
  numberText : JsNumber → String
  seed : Option Text

def Environment.readSeedGames (env : Environment) : List Json := (env.seed.map seedGames).getD []

namespace Process

def persist (p : Process) : Process :=
  match p.storeData with
  | none => p
  | some d => { p with file := some (some d.toJson) }

/-- `none` when it throws. -/
def ensureLoaded (env : Environment) (p : Process) : Option Process :=
  match p.storeData with
  | some _ => some p
  | none =>
      match p.file with
      | some (some parsed) =>
          if (validateStoreData parsed).valid then
            some { p with storeData := some (.ofJson (Json.items (parsed.field "users"))
              (Json.items (parsed.field "games"))) }
          else
            match parsed with
            | .null => none
            | _ =>
                some (persist { p with storeData := some (.ofJson
                  ((Json.items (parsed.field "users")).filter fun u => (validateUserRecord u).valid)
                  ((Json.items (parsed.field "games")).filter fun g => (validateGameRecord g).valid)) })
      | _ => some (persist { p with storeData := some (.ofJson [] env.readSeedGames) })

/-! The tasks of `localStore.ts` do the same when there is no other one. -/

/-- What a process without another task is answered. -/
def answers (env : Environment) (file : Option Text) : (request : Request) → request.Answer
  | .access .store => file.isSome
  | .access .seed => env.seed.isSome
  | .readFile .store => file.join
  | .readFile .seed => env.seed.join
  | .tick => ()
  | .mkdir => ()
  | .turn _ => ()

theorem readSeedGames_alone (env : Environment) (file : Option Text) (s : Store) :
    (call Backend.readSeedGames).alone (answers env file) s = some (env.readSeedGames, s) := by
  obtain ⟨js, numberText, seed⟩ := env
  cases seed <;> rfl

theorem map_value_entries (fresh : Nat) (values : List Json) :
    (entries fresh values).map Entry.value = values := by
  rw [entries, List.map_map]
  exact List.zipIdx_map_fst 0 values

/-- What is assigned is still there after `persist`. -/
theorem assign_alone (env : Environment) (file : Option Text) (s : Store) (users games : List Json) :
    ((do assign users games; call Backend.persist : Async Unit).alone (answers env file) s).bind
        (fun x => x.2.storeData.map StoreData.records) =
      some (.ofJson users games) := by
  show some (Records.ofJson ((entries _ users).map Entry.value) ((entries _ games).map Entry.value)) = _
  rw [map_value_entries, map_value_entries]

theorem assign_seed_alone (env : Environment) (file : Option Text) (s : Store) :
    ((do assign [] (← call Backend.readSeedGames); call Backend.persist : Async Unit).alone
        (answers env file) s).bind (fun x => x.2.storeData.map StoreData.records) =
      some (.ofJson [] env.readSeedGames) := by
  rw [Coro.alone_bind, readSeedGames_alone]
  exact assign_alone env file s [] env.readSeedGames

/-- A task that finds the store not loaded. -/
theorem ensureLoaded_alone (env : Environment) (file : Option Text) (s : Store)
    (hs : s.storeData = none) :
    (Backend.ensureLoaded.alone (answers env file) s).bind (fun x => x.2.storeData.map StoreData.records) =
      (ensureLoaded env ⟨none, file⟩).bind storeData := by
  obtain ⟨_⟩ := s
  cases hs
  rcases file with _ | _ | parsed
  · exact assign_seed_alone env none _
  · exact assign_seed_alone env (some none) _
  · rw [ensureLoaded]
    show ((if _ then _ else _ : Async Unit).alone _ _).bind _ = (if _ then _ else _ : Option Process).bind _
    split
    · exact congrArg some (by rw [StoreData.records, map_value_entries, map_value_entries])
    · cases parsed with
      | null => rfl
      | _ => exact assign_alone env (some (some _)) _ _ _

/-- `await ensureLoaded()` and what follows on the store, which may leave it as it is. -/
def withStore (env : Environment) (p : Process) (change : Records → Option Records) : Process :=
  match p.ensureLoaded env with
  | none => p
  | some p =>
      match p.storeData.bind change with
      | none => p
      | some d => persist { p with storeData := some d }

end Process

/-! ### Users -/

/-- The input of `createUser`. -/
structure NewAccount where
  userId : Option String
  username : JsValue
  email : Option JsValue
  authProvider : AuthProvider
  passwordHash : Option String

def NewAccount.record (input : NewAccount) (username : String) (uuid : Uuid) : JsValue :=
  .object
    [("UserID", some (.str (orText input.userId uuid.text))),
      ("Username", some (.str username)),
      ("Email", some (JsValue.or input.email (.str ""))),
      ("AuthProvider", some (.str (match input.authProvider with
        | .google => "google"
        | .local => "local"))),
      ("PasswordHash", input.passwordHash.map .str)]

/-- The test `user.Username.trim().toLowerCase() === normalized`. -/
def usernameIs (js : Unicode) (normalized : String) (user : JsValue) : Bool :=
  match user.field "Username" with
  | some (.str value) => js.toLowerCase (js.trim value) = normalized
  | _ => false

/-- A name that is no text has no `trim`. -/
def Records.createUser (js : Unicode) (input : NewAccount) (uuid : Uuid) (d : Records) :
    Option Records :=
  match input.username with
  | .str raw =>
      let username := js.trim raw
      if username = "" then none
      else if d.users.any (usernameIs js (js.toLowerCase (js.trim username))) then none
      else some { d with users := d.users ++ [input.record username uuid] }
  | _ => none

/-- The body of a request for an account. -/
structure AccountBody where
  username : Option JsValue
  password : Option Password
  email : Option JsValue

/-- The name and whether the password is a text, if both are there and it is long enough. -/
def AccountBody.accepted (body : AccountBody) : Option (JsValue × Password) :=
  match body.username.filter JsValue.truthy, body.password.filter Password.truthy with
  | some username, some password => if password.short then none else some (username, password)
  | _, _ => none

/-! ### Games -/

/-- The record of `createGame`. -/
def gameValue (input : JsValue) (uuid : Uuid) : JsValue :=
  .object
    [("GameID", some (JsValue.or (input.field "GameID") (.str uuid.text))),
      ("appid", input.field "appid"),
      ("source", some (JsValue.or (input.field "source") (.str "manual"))),
      ("installdir", input.field "installdir"),
      ("developer", some (JsValue.or (input.field "developer") (.str "Unknown"))),
      ("genres", some (JsValue.or (input.field "genres") (.arr []))),
      ("lDescript", some (JsValue.or (input.field "lDescript") (.str ""))),
      ("s3", some (JsValue.or (input.field "s3") (.arr []))),
      ("sDescript", some (JsValue.or (input.field "sDescript")
        (JsValue.or (input.field "title") (.str "")))),
      ("title", some (JsValue.or (input.field "title") (.str "Unknown Game")))]

/-- What `ControllerCreateGame` hands to `createGame`. -/
def createGameInput (body : JsValue) (title : JsValue) : JsValue :=
  .object
    [("title", some title),
      ("developer", some (JsValue.or (body.field "developer") (.str "Unknown"))),
      ("genres", some (JsValue.or (body.field "genres") (.arr []))),
      ("lDescript", some (JsValue.or (body.field "lDescript") (.str ""))),
      ("sDescript", some (JsValue.or (body.field "sDescript") title)),
      ("s3", some (JsValue.or (body.field "s3") (.arr []))),
      ("source", some (JsValue.or (body.field "source") (.str "manual"))),
      ("installdir", body.field "installdir")]

/-- The test `g.appid === appid`. -/
def appIdIs (appid : JsNumber) (game : JsValue) : Bool :=
  match game.field "appid" with
  | some (.num value) => value = appid
  | _ => false

/-- The test `g.GameID === gameId`. -/
def gameIdIs (gameId : String) (game : JsValue) : Bool :=
  match game.field "GameID" with
  | some (.str value) => value = gameId
  | _ => false

/-- The record of `addGameToCatalog`. -/
def catalogValue (appid : JsNumber) (name installdir : String) (metadata : Option Metadata)
    (uuid : Uuid) : JsValue :=
  .object
    [("GameID", some (.str uuid.text)),
      ("appid", some (.num appid)),
      ("source", some (.str "steam")),
      ("installdir", some (.str installdir)),
      ("developer", some (.str (orText (metadata.bind Metadata.developer)
        (orText (metadata.bind Metadata.publisher) "Unknown")))),
      ("genres", some (.arr (((metadata.bind Metadata.genres).getD []).map .str))),
      ("lDescript", some (.str (orText (metadata.bind Metadata.description) ""))),
      ("s3", some (.arr ((pictures metadata).map .str))),
      ("sDescript", some (.str (orText (metadata.bind Metadata.shortDescription)
        (orText (metadata.bind Metadata.title) name)))),
      ("title", some (.str (orText (metadata.bind Metadata.title) name)))]

def Records.addGameToCatalog (appid : JsNumber) (name installdir : String)
    (metadata : Option Metadata) (uuid : Uuid) (d : Records) : Option Records :=
  if d.games.any (appIdIs appid) then none
  else some { d with games := d.games ++ [catalogValue appid name installdir metadata uuid] }

def Records.deleteGame (gameId : String) (d : Records) : Option Records :=
  if d.games.any (gameIdIs gameId) then some { d with games := d.games.eraseP (gameIdIs gameId) }
  else none

/-! ### Requests -/

/-- The requests that write, with what is drawn at random for them or computed elsewhere;
`restart` is a fresh process on the same file. -/
inductive ApiRequest where
  | registerLocal (body : AccountBody) (hash : String) (uuid : Uuid)
  | createUser (username : Option JsValue) (token : Option Token) (uuid : Uuid)
  | bootstrap (body : AccountBody) (hash : String) (uuid : Uuid)
  | createGame (body : JsValue) (uuid : Uuid)
  | claimGame (appid : String) (metadata : Option Metadata) (uuid : Uuid)
  | deleteGame (id : String)
  | restart

namespace Process

variable (env : Environment)

/-- `hashPassword` throws if the password is no text. -/
def createLocal (p : Process) (username : JsValue) (password : Password) (email : Option JsValue)
    (hash : String) (uuid : Uuid) : Process :=
  match password with
  | .text _ => p.withStore env (Records.createUser env.js ⟨none, username, email, .local, some hash⟩ uuid)
  | .other _ => p

def controllerRegisterLocal (p : Process) (body : AccountBody) (hash : String) (uuid : Uuid) : Process :=
  match body.accepted with
  | none => p
  | some (username, password) => p.createLocal env username password (some (.str "")) hash uuid

def controllerCreateUser (p : Process) (username : Option JsValue) (token : Option Token)
    (uuid : Uuid) : Process :=
  match username.filter JsValue.truthy, token with
  | some username, some decodedToken =>
      p.withStore env (Records.createUser env.js
        ⟨some decodedToken.userId, username, some (.str (decodedToken.email.getD "")), .google, none⟩
        uuid)
  | _, _ => p

def controllerBootstrap (p : Process) (body : AccountBody) (hash : String) (uuid : Uuid) : Process :=
  match body.accepted with
  | none => p
  | some (username, password) =>
      match p.ensureLoaded env with
      | none => p
      | some p =>
          if (p.storeData.map fun d => !d.users.isEmpty).getD false then p
          else
            p.createLocal env username password (some (JsValue.or body.email (.str ""))) hash uuid

def controllerCreateGame (p : Process) (body : JsValue) (uuid : Uuid) : Process :=
  match (body.field "title").filter JsValue.truthy with
  | none => p
  | some title =>
      p.withStore env fun d =>
        some { d with games := d.games ++ [gameValue (createGameInput body title) uuid] }

/-- What `ControllerClaimGame` does with a number. -/
def claimNumber (p : Process) (appidNum : JsNumber) (metadata : Option Metadata) (uuid : Uuid) : Process :=
  match p.ensureLoaded env with
  | none => p
  | some p =>
      if (p.storeData.map fun d => d.games.any (appIdIs appidNum)).getD false then p
      else
        p.withStore env (Records.addGameToCatalog appidNum
          (orText (metadata.bind Metadata.title) ("Game " ++ env.numberText appidNum)) "" metadata uuid)

def controllerClaimGame (p : Process) (appid : String) (metadata : Option Metadata) (uuid : Uuid) :
    Process :=
  match JsNumber.parseInt (env.js.trim appid).toList with
  | none => p
  | some appidNum => p.claimNumber env appidNum metadata uuid

def controllerDeleteGame (p : Process) (id : String) : Process :=
  if id = "" then p else p.withStore env (Records.deleteGame id)

def handle (p : Process) : ApiRequest → Process
  | .registerLocal body hash uuid => p.controllerRegisterLocal env body hash uuid
  | .createUser username token uuid => p.controllerCreateUser env username token uuid
  | .bootstrap body hash uuid => p.controllerBootstrap env body hash uuid
  | .createGame body uuid => p.controllerCreateGame env body uuid
  | .claimGame appid metadata uuid => p.controllerClaimGame env appid metadata uuid
  | .deleteGame id => p.controllerDeleteGame env id
  | .restart => { p with storeData := none }

/-- A fresh process on the same file has the same users and games. -/
def Reloads (p : Process) : Prop :=
  ∀ d, p.storeData = some d →
    ∃ p', ensureLoaded env { p with storeData := none } = some p' ∧ p'.storeData = some d

/-- From a start without a data file, the requests that are allowed. -/
def system (allowed : ApiRequest → Prop) : Labelled Process ApiRequest where
  init p := p = ⟨none, none⟩
  step p request p' := allowed request ∧ p.handle env request = p'

end Process

/-! ### Records that validation accepts -/

/-- The result of a validation, of whatever kind of record. -/
theorem errors_eq_nil {object : Bool} {errors : List String} {error : String}
    (h : (if object then ValidationResult.of errors else ⟨false, [error]⟩).valid = true) :
    (if object then ValidationResult.of errors else ⟨false, [error]⟩).errors = [] := by
  cases object with
  | false => cases h
  | true => exact List.isEmpty_iff.mp h

/-- The records were parsed, or could have been, and all of them are accepted. -/
structure Records.Sound (d : Records) : Prop where
  parsed : ∃ users games, d = .ofJson users games ∧
    (∀ u ∈ users, (validateUserRecord u).valid = true) ∧
    ∀ g ∈ games, (validateGameRecord g).valid = true

theorem Records.toJson_ofJson (users games : List Json) :
    (Records.ofJson users games).toJson = .obj [("users", .arr users), ("games", .arr games)] := by
  have hmap (values : List Json) : (values.map JsValue.ofJson).map JsValue.toJson = values := by
    rw [List.map_map]
    exact (List.map_congr_left fun value _ => JsValue.toJson_ofJson value).trans (List.map_id values)
  rw [Records.toJson, Records.ofJson, hmap, hmap]

theorem validateRecords_eq_nil {data : Json} {key : String} {values : List Json}
    {validate : Json → ValidationResult} (hfield : data.field key = some (.arr values))
    (hvalid : ∀ value ∈ values, (validate value).errors = []) :
    validateRecords data key validate = [] := by
  rw [validateRecords, hfield]
  dsimp only
  rw [List.flatMap_eq_nil_iff]
  intro item hitem
  rw [hvalid item.1 (List.fst_mem_of_mem_zipIdx hitem)]
  rfl

theorem validateStoreData_valid {data : Json} {users games : List Json} (hdata : data.isObject = true)
    (husers : data.field "users" = some (.arr users)) (hgames : data.field "games" = some (.arr games))
    (hu : ∀ u ∈ users, (validateUserRecord u).valid = true)
    (hg : ∀ g ∈ games, (validateGameRecord g).valid = true) : (validateStoreData data).valid = true := by
  have hu' : ∀ u ∈ users, (validateUserRecord u).errors = [] :=
    fun u hmem => errors_eq_nil (hu u hmem)
  have hg' : ∀ g ∈ games, (validateGameRecord g).errors = [] :=
    fun g hmem => errors_eq_nil (hg g hmem)
  rw [validateStoreData, if_pos hdata, validateRecords_eq_nil husers hu',
    validateRecords_eq_nil hgames hg']
  rfl

/-- The record is what a valid one is parsed to. -/
def SoundUser (value : JsValue) : Prop :=
  ∃ j, value = .ofJson j ∧ (validateUserRecord j).valid = true

def SoundGame (value : JsValue) : Prop :=
  ∃ j, value = .ofJson j ∧ (validateGameRecord j).valid = true

theorem Records.Sound.pushUser {d : Records} {value : JsValue} (h : d.Sound) (hvalue : SoundUser value) :
    Records.Sound { d with users := d.users ++ [value] } := by
  obtain ⟨users, games, rfl, husers, hgames⟩ := h.parsed
  obtain ⟨j, rfl, hj⟩ := hvalue
  refine ⟨users ++ [j], games, by simp [Records.ofJson], ?_, hgames⟩
  exact List.forall_mem_append.mpr ⟨husers, List.forall_mem_singleton.mpr hj⟩

theorem Records.Sound.pushGame {d : Records} {value : JsValue} (h : d.Sound) (hvalue : SoundGame value) :
    Records.Sound { d with games := d.games ++ [value] } := by
  obtain ⟨users, games, rfl, husers, hgames⟩ := h.parsed
  obtain ⟨j, rfl, hj⟩ := hvalue
  refine ⟨users, games ++ [j], by simp [Records.ofJson], husers, ?_⟩
  exact List.forall_mem_append.mpr ⟨hgames, List.forall_mem_singleton.mpr hj⟩

theorem Records.Sound.deleteGame {d d' : Records} {gameId : String} (h : d.Sound)
    (hdelete : d.deleteGame gameId = some d') : d'.Sound := by
  obtain ⟨users, games, rfl, husers, hgames⟩ := h.parsed
  rw [Records.deleteGame] at hdelete
  split at hdelete
  · cases hdelete
    refine ⟨users, games.eraseP fun g => gameIdIs gameId (.ofJson g), ?_, husers,
      fun g hg => hgames g (List.mem_of_mem_eraseP hg)⟩
    simp only [Records.ofJson, List.eraseP_map]
    rfl
  · cases hdelete

/-! ### Values of the right type -/

/-- Falsy, so that a default is taken, or as it should be. -/
def falsyOr (test : JsValue → Bool) (value : Option JsValue) : Bool :=
  value.all fun value => !value.truthy || test value

def isStrings : JsValue → Bool
  | .arr items => items.all JsValue.isString
  | _ => false

def isSource : JsValue → Bool
  | .str value => ["steam", "non-steam", "manual", "seed"].contains value
  | _ => false

theorem or_of_falsyOr {test : JsValue → Bool} {value : Option JsValue} {other : JsValue}
    (h : falsyOr test value = true) (hother : test other = true) :
    test (JsValue.or value other) = true := by
  cases value with
  | none => exact hother
  | some value =>
      rw [JsValue.or]
      split
      · next htruthy => simpa [falsyOr, htruthy] using h
      · exact hother

theorem falsyOr_or {test : JsValue → Bool} {value : Option JsValue} {other : JsValue}
    (h : falsyOr test value = true) (hother : test other = true) :
    falsyOr test (some (JsValue.or value other)) = true := by
  simp [falsyOr, or_of_falsyOr h hother]

theorem truthy_or {value : Option JsValue} {other : JsValue} (hother : other.truthy = true) :
    (JsValue.or value other).truthy = true := by
  cases value with
  | none => exact hother
  | some value =>
      rw [JsValue.or]
      split
      · assumption
      · exact hother

theorem isString_iff {value : JsValue} : value.isString = true ↔ ∃ text, value = .str text := by
  cases value <;> simp [JsValue.isString]

theorem isStrings_iff {value : JsValue} :
    isStrings value = true ↔ ∃ texts : List String, value = .arr (texts.map .str) := by
  have hitems (items : List JsValue) :
      items.all JsValue.isString = true ↔ ∃ texts : List String, items = texts.map .str := by
    induction items with
    | nil => simp
    | cons item items ih =>
        rw [List.all_cons, Bool.and_eq_true, isString_iff, ih]
        constructor
        · rintro ⟨⟨text, rfl⟩, texts, rfl⟩
          exact ⟨text :: texts, rfl⟩
        · rintro ⟨texts, htexts⟩
          cases texts with
          | nil => cases htexts
          | cons text texts =>
              obtain ⟨rfl, rfl⟩ := List.cons_eq_cons.mp htexts
              exact ⟨⟨text, rfl⟩, texts, rfl⟩
  cases value <;> simp [isStrings, hitems]

theorem ofJson_strings (texts : List String) :
    JsValue.ofJson (.arr (texts.map .str)) = .arr (texts.map .str) := by
  rw [JsValue.ofJson, JsValue.ofJsonItems_eq, List.map_map]
  rfl

theorem orText_ne_empty {value : Option String} {other : String} (hother : other ≠ "") :
    orText value other ≠ "" := by
  cases value with
  | none => exact hother
  | some value =>
      rw [orText]
      split
      · exact hother
      · assumption

section Checks

variable {data : Json} {key : String}

theorem requiredString_eq_nil {value : String} (hfield : data.field key = some (.str value))
    (hvalue : value ≠ "") : requiredString data key = [] := by
  rw [requiredString, hfield]
  exact if_neg hvalue

theorem optionalString_eq_nil (value : Option String) (hfield : data.field key = value.map .str) :
    optionalString data key = [] := by
  rw [optionalString, hfield]
  cases value <;> rfl

theorem optionalStrings_eq_nil {texts : List String}
    (hfield : data.field key = some (.arr (texts.map .str))) : optionalStrings data key = [] := by
  have hnone : (texts.map Json.str).findIdx? (fun item => !item.isString) = none := by
    simp [List.findIdx?_eq_none_iff, Json.isString]
  rw [optionalStrings, hfield]
  dsimp only
  rw [hnone]

theorem optionalNumber_eq_nil {value : Option Rat} (hfield : data.field key = value.map .num) :
    optionalNumber data key = [] := by
  rw [optionalNumber, hfield]
  cases value <;> rfl

theorem oneOf_eq_nil {value : String} {texts : List String} (error : String)
    (hfield : data.field key = some (.str value)) (hvalue : texts.contains value = true) :
    oneOf data key texts error = [] := by
  rw [oneOf, hfield]
  exact if_pos hvalue

end Checks

/-- A game whose fields have the right types. -/
def gameJson (id : String) (appid : Option Rat) (source : String) (installdir : Option String)
    (developer : String) (genres : List String) (lDescript : String) (s3 : List String)
    (sDescript title : String) : Json :=
  .object
    [("GameID", some (.str id)), ("appid", appid.map .num), ("source", some (.str source)),
      ("installdir", installdir.map .str), ("developer", some (.str developer)),
      ("genres", some (.arr (genres.map .str))), ("lDescript", some (.str lDescript)),
      ("s3", some (.arr (s3.map .str))), ("sDescript", some (.str sDescript)),
      ("title", some (.str title))]

/-- Validation accepts it. -/
theorem validateGameRecord_valid {id source title : String} (appid : Option Rat)
    (installdir : Option String) (developer : String) (genres : List String) (lDescript : String)
    (s3 : List String) (sDescript : String) (hid : id ≠ "")
    (hsource : ["steam", "non-steam", "manual", "seed"].contains source = true) (htitle : title ≠ "") :
    (validateGameRecord (gameJson id appid source installdir developer genres lDescript s3 sDescript
      title)).valid = true := by
  have hchecks {data : Json} (hobject : data.isObject = true) (h₁ : data.field "GameID" = some (.str id))
      (h₂ : data.field "title" = some (.str title)) (h₃ : data.field "developer" = some (.str developer))
      (h₄ : data.field "genres" = some (.arr (genres.map .str)))
      (h₅ : data.field "lDescript" = some (.str lDescript))
      (h₆ : data.field "s3" = some (.arr (s3.map .str)))
      (h₇ : data.field "sDescript" = some (.str sDescript))
      (h₈ : data.field "source" = some (.str source)) (h₉ : data.field "appid" = appid.map .num)
      (h₁₀ : data.field "installdir" = installdir.map .str) : (validateGameRecord data).valid = true := by
    rw [validateGameRecord, if_pos hobject, requiredString_eq_nil h₁ hid, requiredString_eq_nil h₂ htitle,
      optionalString_eq_nil (some developer) h₃, optionalStrings_eq_nil h₄,
      optionalString_eq_nil (some lDescript) h₅, optionalStrings_eq_nil h₆,
      optionalString_eq_nil (some sDescript) h₇, oneOf_eq_nil _ h₈ hsource,
      optionalNumber_eq_nil h₉, optionalString_eq_nil installdir h₁₀]
    rfl
  cases appid <;> cases installdir <;> exact hchecks rfl rfl rfl rfl rfl rfl rfl rfl rfl rfl rfl

theorem validateUserRecord_valid (input : NewUser) {username uuid : String} (husername : username ≠ "")
    (huuid : uuid ≠ "") : (validateUserRecord (userRecord input username uuid)).valid = true := by
  obtain ⟨userId, name, email, authProvider, passwordHash⟩ := input
  have hchecks {data : Json} (hobject : data.isObject = true)
      (h₁ : data.field "UserID" = some (.str (orText userId uuid)))
      (h₂ : data.field "Username" = some (.str username))
      (h₃ : data.field "Email" = some (.str (orText email "")))
      (h₄ : data.field "AuthProvider" = some (.str "google") ∨
        data.field "AuthProvider" = some (.str "local"))
      (h₅ : data.field "PasswordHash" = passwordHash.map .str) :
      (validateUserRecord data).valid = true := by
    have hprovider (error : String) : oneOf data "AuthProvider" ["google", "local"] error = [] := by
      rcases h₄ with h₄ | h₄
      · exact oneOf_eq_nil error h₄ rfl
      · exact oneOf_eq_nil error h₄ rfl
    rw [validateUserRecord, if_pos hobject, requiredString_eq_nil h₁ (orText_ne_empty huuid),
      requiredString_eq_nil h₂ husername, optionalString_eq_nil (some _) h₃, hprovider,
      optionalString_eq_nil passwordHash h₅]
    rfl
  cases passwordHash <;> cases authProvider
  · exact hchecks rfl rfl rfl rfl (.inl rfl) rfl
  · exact hchecks rfl rfl rfl rfl (.inr rfl) rfl
  · exact hchecks rfl rfl rfl rfl (.inl rfl) rfl
  · exact hchecks rfl rfl rfl rfl (.inr rfl) rfl

/-- An account with an address that is a text is the one of `localStore.ts`. -/
theorem soundUser_record {input : NewAccount} {username : String} (uuid : Uuid)
    (hemail : falsyOr JsValue.isString input.email = true) (husername : username ≠ "") :
    SoundUser (input.record username uuid) := by
  obtain ⟨email, hemail⟩ := isString_iff.mp (or_of_falsyOr hemail (show (JsValue.str "").isString from rfl))
  have hsame : orText (some email) "" = email := by
    rw [orText]
    split
    · next hempty => exact hempty.symm
    · rfl
  refine ⟨userRecord ⟨input.userId, username, some email, input.authProvider, input.passwordHash⟩ username
    uuid.text, ?_, validateUserRecord_valid _ husername uuid.nonempty⟩
  rw [NewAccount.record, userRecord, JsValue.ofJson_object, hemail]
  dsimp only [List.map_cons, List.map_nil, Option.map_some, JsValue.ofJson]
  rw [hsame]
  cases input.passwordHash <;> rfl

/-- A game whose fields have the right types. -/
theorem soundGame_gameValue {input : JsValue} (uuid : Uuid) (hid : input.field "GameID" = none)
    (happid : input.field "appid" = none) (hsource : falsyOr isSource (input.field "source") = true)
    (hinstalldir : (input.field "installdir").all JsValue.isString = true)
    (hdeveloper : falsyOr JsValue.isString (input.field "developer") = true)
    (hgenres : falsyOr isStrings (input.field "genres") = true)
    (hlDescript : falsyOr JsValue.isString (input.field "lDescript") = true)
    (hs3 : falsyOr isStrings (input.field "s3") = true)
    (hsDescript : falsyOr JsValue.isString (input.field "sDescript") = true)
    (htitle : falsyOr JsValue.isString (input.field "title") = true) :
    SoundGame (gameValue input uuid) := by
  have htext (other : String) {value : Option JsValue} (h : falsyOr JsValue.isString value = true) :=
    isString_iff.mp (or_of_falsyOr h (show (JsValue.str other).isString from rfl))
  have htexts {value : Option JsValue} (h : falsyOr isStrings value = true) :=
    isStrings_iff.mp (or_of_falsyOr h (show isStrings (.arr []) from rfl))
  obtain ⟨developer, hdeveloper⟩ := htext "Unknown" hdeveloper
  obtain ⟨genres, hgenres⟩ := htexts hgenres
  obtain ⟨lDescript, hlDescript⟩ := htext "" hlDescript
  obtain ⟨s3, hs3⟩ := htexts hs3
  obtain ⟨sDescript, hsDescript⟩ := isString_iff.mp (or_of_falsyOr hsDescript
    (or_of_falsyOr htitle (show (JsValue.str "").isString from rfl)))
  obtain ⟨title, htitle⟩ := htext "Unknown Game" htitle
  have htitle' : title ≠ "" := by
    have htruthy : (JsValue.or (input.field "title") (.str "Unknown Game")).truthy = true :=
      truthy_or rfl
    rw [htitle] at htruthy
    simpa [JsValue.truthy] using htruthy
  obtain ⟨source, hsource, hone⟩ : ∃ source, JsValue.or (input.field "source") (.str "manual") =
      .str source ∧ ["steam", "non-steam", "manual", "seed"].contains source = true := by
    have hsource := or_of_falsyOr hsource (show isSource (.str "manual") from rfl)
    cases hvalue : JsValue.or (input.field "source") (.str "manual") with
    | str source =>
        rw [hvalue] at hsource
        exact ⟨source, rfl, hsource⟩
    | _ =>
        rw [hvalue] at hsource
        cases hsource
  obtain ⟨installdir, hinstalldir⟩ : ∃ installdir : Option String,
      input.field "installdir" = installdir.map .str := by
    cases hvalue : input.field "installdir" with
    | none => exact ⟨none, rfl⟩
    | some value =>
        rw [hvalue] at hinstalldir
        obtain ⟨text, rfl⟩ := isString_iff.mp hinstalldir
        exact ⟨some text, rfl⟩
  refine ⟨gameJson uuid.text none source installdir developer genres lDescript s3 sDescript title, ?_,
    validateGameRecord_valid _ _ _ _ _ _ _ uuid.nonempty hone htitle'⟩
  rw [gameJson, JsValue.ofJson_object, gameValue, hid, happid, hsource, hinstalldir, hdeveloper, hgenres,
    hlDescript, hs3, hsDescript, htitle]
  simp only [List.map_cons, List.map_nil, Option.map_some, Option.map_none, ofJson_strings]
  cases installdir <;> rfl

/-- A game of the catalog with a finite number. -/
theorem soundGame_catalogValue (appid : Rat) {name : String} (installdir : String)
    (metadata : Option Metadata) (uuid : Uuid) (hname : name ≠ "") :
    SoundGame (catalogValue (.finite appid) name installdir metadata uuid) := by
  refine ⟨catalogRecord ⟨appid, name, installdir⟩ metadata uuid.text, ?_, ?_⟩
  · rw [catalogRecord, JsValue.ofJson_object, catalogValue]
    simp only [List.map_cons, List.map_nil, Option.map_some, ofJson_strings]
    rfl
  · exact validateGameRecord_valid (some appid) (some installdir) _ _ _ _ _ uuid.nonempty rfl
      (orText_ne_empty hname)

namespace Process

variable {env : Environment} {p : Process}

theorem load_sound {d : Records} (h : d.Sound) (env : Environment) :
    ensureLoaded env ⟨none, some (some d.toJson)⟩ = some ⟨some d, some (some d.toJson)⟩ := by
  obtain ⟨users, games, rfl, husers, hgames⟩ := h.parsed
  have hvalid : (validateStoreData (.obj [("users", .arr users), ("games", .arr games)])).valid = true :=
    validateStoreData_valid rfl rfl rfl husers hgames
  rw [Records.toJson_ofJson]
  unfold ensureLoaded
  dsimp only
  rw [if_pos hvalid]
  rfl

/-- The file has what the store has. -/
def Inv (p : Process) : Prop :=
  (∃ d : Records, d.Sound ∧ p.file = some (some d.toJson) ∧
    (p.storeData = none ∨ p.storeData = some d)) ∨ (p.file = none ∧ p.storeData = none)

theorem Inv.reloads (h : p.Inv) : p.Reloads env := by
  intro d hd
  rcases h with ⟨d', hsound, hfile, hstore⟩ | ⟨-, hstore⟩
  · rcases hstore with hstore | hstore
    · cases hd.symm.trans hstore
    · cases hd.symm.trans hstore
      rw [hfile]
      exact ⟨_, load_sound hsound env, rfl⟩
  · cases hd.symm.trans hstore

theorem Inv.loaded (hseed : ∀ g ∈ env.readSeedGames, (validateGameRecord g).valid = true)
    (h : p.Inv) :
    ∃ d : Records, d.Sound ∧ p.ensureLoaded env = some ⟨some d, some (some d.toJson)⟩ := by
  obtain ⟨storeData, file⟩ := p
  rcases h with ⟨d, hsound, hfile, hstore⟩ | ⟨hfile, hstore⟩
  · obtain rfl : file = some (some d.toJson) := hfile
    refine ⟨d, hsound, ?_⟩
    rcases hstore with hstore | hstore
    · obtain rfl : storeData = none := hstore
      exact load_sound hsound env
    · obtain rfl : storeData = some d := hstore
      rfl
  · obtain rfl : file = none := hfile
    obtain rfl : storeData = none := hstore
    exact ⟨.ofJson [] env.readSeedGames, ⟨[], _, rfl, nofun, hseed⟩, rfl⟩

theorem Inv.withStore (hseed : ∀ g ∈ env.readSeedGames, (validateGameRecord g).valid = true)
    (h : p.Inv) {change : Records → Option Records}
    (hchange : ∀ d d' : Records, d.Sound → change d = some d' → d'.Sound) :
    (p.withStore env change).Inv := by
  obtain ⟨d, hsound, hloaded⟩ := h.loaded hseed
  rw [Process.withStore, hloaded]
  dsimp only [Option.bind_some]
  cases hd' : change d with
  | none => exact .inl ⟨d, hsound, rfl, .inr rfl⟩
  | some d' => exact .inl ⟨d', hchange d d' hsound hd', rfl, .inr rfl⟩

end Process

/-- The fields of a new game have the types that validation asks for. -/
def createGameTyped (body : JsValue) : Bool :=
  falsyOr JsValue.isString (body.field "title") &&
    falsyOr JsValue.isString (body.field "developer") && falsyOr isStrings (body.field "genres") &&
    falsyOr JsValue.isString (body.field "lDescript") &&
    falsyOr JsValue.isString (body.field "sDescript") && falsyOr isStrings (body.field "s3") &&
    falsyOr isSource (body.field "source") && (body.field "installdir").all JsValue.isString

/-- What a request would store can be loaded again. -/
def ApiRequest.typed (env : Environment) : ApiRequest → Bool
  | .bootstrap body _ _ => falsyOr JsValue.isString body.email
  | .createGame body _ => !(body.field "title").any JsValue.truthy || createGameTyped body
  | .claimGame appid _ _ =>
      match JsNumber.parseInt (env.js.trim appid).toList with
      | some (.infinite _) => false
      | _ => true
  | _ => true

theorem Records.Sound.createUser {js : Unicode} {input : NewAccount} {uuid : Uuid} {d d' : Records}
    (h : d.Sound) (hemail : falsyOr JsValue.isString input.email = true)
    (hcreate : d.createUser js input uuid = some d') : d'.Sound := by
  unfold Records.createUser at hcreate
  cases husername : input.username with
  | str raw =>
      rw [husername] at hcreate
      dsimp only at hcreate
      split at hcreate
      · cases hcreate
      · next hnonempty =>
        split at hcreate
        · cases hcreate
        · cases hcreate
          exact h.pushUser (soundUser_record uuid hemail hnonempty)
  | _ =>
      rw [husername] at hcreate
      cases hcreate

/-- What `createGame` finds in its input. -/
theorem field_createGameInput (body title : JsValue) :
    (createGameInput body title).field "GameID" = none ∧
      (createGameInput body title).field "appid" = none ∧
      (createGameInput body title).field "source" =
        some (JsValue.or (body.field "source") (.str "manual")) ∧
      (createGameInput body title).field "installdir" = body.field "installdir" ∧
      (createGameInput body title).field "developer" =
        some (JsValue.or (body.field "developer") (.str "Unknown")) ∧
      (createGameInput body title).field "genres" =
        some (JsValue.or (body.field "genres") (.arr [])) ∧
      (createGameInput body title).field "lDescript" =
        some (JsValue.or (body.field "lDescript") (.str "")) ∧
      (createGameInput body title).field "s3" = some (JsValue.or (body.field "s3") (.arr [])) ∧
      (createGameInput body title).field "sDescript" =
        some (JsValue.or (body.field "sDescript") title) ∧
      (createGameInput body title).field "title" = some title := by
  unfold createGameInput
  cases body.field "installdir" <;> exact ⟨rfl, rfl, rfl, rfl, rfl, rfl, rfl, rfl, rfl, rfl⟩

theorem soundGame_createGame {body title : JsValue} (uuid : Uuid) (htyped : createGameTyped body = true)
    (htitle : body.field "title" = some title) (htruthy : title.truthy = true) :
    SoundGame (gameValue (createGameInput body title) uuid) := by
  simp only [createGameTyped, Bool.and_eq_true] at htyped
  obtain ⟨⟨⟨⟨⟨⟨⟨htext, hdeveloper⟩, hgenres⟩, hlDescript⟩, hsDescript⟩, hs3⟩, hsource⟩, hinstalldir⟩ := htyped
  have hstring : title.isString = true := by
    rw [htitle] at htext
    simpa [falsyOr, htruthy] using htext
  obtain ⟨h₁, h₂, h₃, h₄, h₅, h₆, h₇, h₈, h₉, h₁₀⟩ := field_createGameInput body title
  apply soundGame_gameValue uuid h₁ h₂
  · rw [h₃]
    exact falsyOr_or hsource rfl
  · rw [h₄]
    exact hinstalldir
  · rw [h₅]
    exact falsyOr_or hdeveloper rfl
  · rw [h₆]
    exact falsyOr_or hgenres rfl
  · rw [h₇]
    exact falsyOr_or hlDescript rfl
  · rw [h₈]
    exact falsyOr_or hs3 rfl
  · rw [h₉]
    exact falsyOr_or hsDescript hstring
  · rw [h₁₀]
    simp [falsyOr, hstring]

namespace Process

variable {env : Environment} {p : Process}

theorem Inv.createLocal (hseed : ∀ g ∈ env.readSeedGames, (validateGameRecord g).valid = true)
    (h : p.Inv) (username : JsValue) (password : Password) {email : Option JsValue}
    (hemail : falsyOr JsValue.isString email = true) (hash : String) (uuid : Uuid) :
    (p.createLocal env username password email hash uuid).Inv := by
  cases password with
  | text _ => exact h.withStore hseed fun d d' hd hcreate => hd.createUser hemail hcreate
  | other _ => exact h

/-- The process after it has loaded the store. -/
theorem Inv.ensured (hseed : ∀ g ∈ env.readSeedGames, (validateGameRecord g).valid = true) (h : p.Inv) :
    ∃ p', p.ensureLoaded env = some p' ∧ p'.Inv := by
  obtain ⟨d, hsound, hloaded⟩ := h.loaded hseed
  exact ⟨_, hloaded, .inl ⟨d, hsound, rfl, .inr rfl⟩⟩

theorem Inv.handle (hseed : ∀ g ∈ env.readSeedGames, (validateGameRecord g).valid = true) (h : p.Inv)
    {request : ApiRequest} (htyped : request.typed env = true) : (p.handle env request).Inv := by
  cases request with
  | registerLocal body hash uuid =>
      simp only [Process.handle, controllerRegisterLocal]
      cases body.accepted with
      | none => exact h
      | some account => exact h.createLocal hseed account.1 account.2 rfl hash uuid
  | createUser username token uuid =>
      simp only [Process.handle, controllerCreateUser]
      cases username.filter JsValue.truthy with
      | none => exact h
      | some username =>
          cases token with
          | none => exact h
          | some token =>
              refine h.withStore hseed fun d d' hd hcreate => hd.createUser ?_ hcreate
              simp [falsyOr, JsValue.isString]
  | bootstrap body hash uuid =>
      simp only [Process.handle, controllerBootstrap]
      cases body.accepted with
      | none => exact h
      | some account =>
          obtain ⟨p', hloaded, h'⟩ := h.ensured hseed
          rw [hloaded]
          dsimp only
          split
          · exact h'
          · exact h'.createLocal hseed account.1 account.2 (falsyOr_or htyped rfl) hash uuid
  | createGame body uuid =>
      simp only [Process.handle, controllerCreateGame]
      cases htitle : (body.field "title").filter JsValue.truthy with
      | none => exact h
      | some title =>
          obtain ⟨hfield, htruthy⟩ := Option.filter_eq_some_iff.mp htitle
          have hbody : createGameTyped body = true := by
            simpa [ApiRequest.typed, hfield, htruthy] using htyped
          refine h.withStore hseed fun d d' hd hcreate => ?_
          cases hcreate
          exact hd.pushGame (soundGame_createGame uuid hbody hfield htruthy)
  | claimGame appid metadata uuid =>
      simp only [Process.handle, controllerClaimGame]
      simp only [ApiRequest.typed] at htyped
      cases hnumber : JsNumber.parseInt (env.js.trim appid).toList with
      | none => exact h
      | some number =>
          rw [hnumber] at htyped
          obtain ⟨p', hloaded, h'⟩ := h.ensured hseed
          dsimp only [claimNumber]
          rw [hloaded]
          dsimp only
          split
          · exact h'
          · refine h'.withStore hseed fun d d' hd hadd => ?_
            unfold Records.addGameToCatalog at hadd
            split at hadd
            · cases hadd
            · cases hadd
              cases number with
              | infinite _ => cases htyped
              | finite value =>
                  refine hd.pushGame (soundGame_catalogValue value "" metadata uuid (orText_ne_empty ?_))
                  intro hempty
                  have hlength := congrArg String.length hempty
                  simp at hlength
  | deleteGame id =>
      simp only [Process.handle, controllerDeleteGame]
      split
      · exact h
      · exact h.withStore hseed fun d d' hd hdelete => hd.deleteGame hdelete
  | restart =>
      rcases h with ⟨d, hsound, hfile, -⟩ | ⟨hfile, -⟩
      · exact .inl ⟨d, hsound, hfile, .inl rfl⟩
      · exact .inr ⟨hfile, rfl⟩

end Process

/-- In every run of requests whose values have the types that validation asks for, a fresh process
loads what the store has. -/
theorem reloads_same (env : Environment)
    (hseed : ∀ g ∈ env.readSeedGames, (validateGameRecord g).valid = true)
    {trace : List ApiRequest} {p : Process}
    (hs : (Process.system env fun request => request.typed env = true).Run trace p) :
    p.Reloads env := by
  have h : p.Inv := by
    refine hs.always Process.Inv ?_ ?_
    · rintro p rfl
      exact .inr ⟨rfl, rfl⟩
    · rintro p request _ h ⟨htyped, rfl⟩
      exact h.handle hseed htyped
  exact h.reloads

/-- The first game of the seed file, in short. -/
def seedFile : Json :=
  .arr [.obj
    [("GameID", .str "assault-cube"), ("title", .str "AssaultCube"),
      ("developer", .str "AssaultCube Team"),
      ("genres", .arr [.str "FPS", .str "Multiplayer", .str "Free to Play"]),
      ("s3", .arr [])]]

/-- Names without blanks and capital letters, numbers as small integers. -/
def seeded : Environment where
  js := ⟨id, id⟩
  numberText
    | .finite value => toString value.num
    | .infinite _ => "Infinity"
  seed := some (some seedFile)

/-- A user, two new games one of which is deleted, and a restart. -/
def oneDay : List ApiRequest :=
  [.bootstrap ⟨some (.str "alice"), some (.text "password"), none⟩ "salt:key" ⟨"1", by decide⟩,
    .createGame (.obj [("title", .str "Chess"), ("genres", .arr [.str "Board"])]) ⟨"2", by decide⟩,
    .claimGame "440" none ⟨"3", by decide⟩, .deleteGame "2", .restart,
    .createGame (.obj [("title", .str "Go")]) ⟨"4", by decide⟩]

/-- How many users and games there are. -/
def Process.sizes (p : Process) : Option (Nat × Nat) :=
  p.storeData.map fun d => (d.users.length, d.games.length)

theorem reloads_same_oneDay :
    (∀ g ∈ seeded.readSeedGames, (validateGameRecord g).valid = true) ∧
    ∃ p, (Process.system seeded fun request => request.typed seeded = true).Run oneDay p ∧
      p.sizes = some (1, 3) ∧ p.Reloads seeded := by
  have hseed : ∀ g ∈ seeded.readSeedGames, (validateGameRecord g).valid = true := by
    decide
  have hend : (Labelled.follow (fun p request => some (Process.handle seeded p request))
      (fun _ request => request.typed seeded = true) oneDay ⟨none, none⟩).map Process.sizes =
      some (some (1, 3)) := by
    decide +kernel
  obtain ⟨p, hp, hsizes⟩ := Option.map_eq_some_iff.mp hend
  have hstart : (Process.system seeded fun request => request.typed seeded = true).Run []
      ⟨none, none⟩ := .start rfl
  have hrun := hstart.follow (fun _ _ _ htyped hnext => ⟨htyped, Option.some.inj hnext⟩) hp
  exact ⟨hseed, p, hrun, hsizes, reloads_same seeded hseed hrun⟩

/-- Fewer records are loaded than there are in memory, or more. -/
theorem not_reloads {env : Environment} {p : Process} (hloaded : p.storeData.isSome = true)
    (hsizes : p.sizes ≠ (Process.ensureLoaded env { p with storeData := none }).bind Process.sizes) :
    ¬ p.Reloads env := by
  intro hreloads
  obtain ⟨d, hd⟩ := Option.isSome_iff_exists.mp hloaded
  obtain ⟨p', hp', hd'⟩ := hreloads d hd
  apply hsizes
  rw [hp', Option.bind_some, Process.sizes, Process.sizes, hd, hd']

/-- More digits than a number can have. -/
def manyDigits : String := String.ofList (List.replicate 310 '9')

theorem parseInt_manyDigits :
    JsNumber.parseInt (seeded.js.trim manyDigits).toList = some (.infinite false) := by
  rw [show seeded.js.trim manyDigits = String.ofList (List.replicate 310 '9') from rfl,
    String.toList_ofList]
  decide +kernel

/-- After the first request something is lost in a restart. -/
def Loses (request : ApiRequest) : Prop :=
  ∃ p, (Process.system seeded fun _ => True).Run [request] p ∧ ¬ p.Reloads seeded

theorem Loses.of_sizes {request : ApiRequest} {p : Process}
    (hp : Process.handle seeded ⟨none, none⟩ request = p) (hloaded : p.storeData.isSome = true)
    (hsizes : p.sizes ≠ (Process.ensureLoaded seeded { p with storeData := none }).bind Process.sizes) :
    Loses request :=
  ⟨p, .next (.start rfl) ⟨trivial, hp⟩, not_reloads hloaded hsizes⟩

/-- A game whose title is a number, a game whose number is infinite, and a user whose address is a
number. -/
theorem records_lost :
    Loses (.createGame (.obj [("title", .num (.finite 5))]) ⟨"1", by decide⟩) ∧
    Loses (.claimGame manyDigits none ⟨"1", by decide⟩) ∧
    Loses (.bootstrap ⟨some (.str "alice"), some (.text "password"), some (.num (.finite 5))⟩ "salt:key"
      ⟨"1", by decide⟩) := by
  refine ⟨.of_sizes rfl (by decide) (by decide +kernel), ?_,
    .of_sizes rfl (by decide) (by decide +kernel)⟩
  have hclaim : Process.handle seeded ⟨none, none⟩ (.claimGame manyDigits none ⟨"1", by decide⟩) =
      Process.claimNumber seeded ⟨none, none⟩ (.infinite false) none ⟨"1", by decide⟩ := by
    rw [Process.handle, Process.controllerClaimGame, parseInt_manyDigits]
  exact .of_sizes hclaim (by decide) (by decide +kernel)

end Stratus.Backend
