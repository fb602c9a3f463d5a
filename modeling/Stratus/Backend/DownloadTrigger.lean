import Stratus.Backend.DownloadStatus

/-! `triggerDownload` of `dockerTrigger.ts`: the queue goes to the container in its environment, and the
status reads it from a file. -/
namespace Stratus.Backend.Download

open Stratus.Lib Stratus.Backend.Manifest

/-- A promise that rejects gives `none`. -/
structure Response where
  status : Nat
  text : Option String
  json : Option Json

def Response.ok (resp : Response) : Bool := 200 ≤ resp.status && resp.status ≤ 299

/-- What becomes of the requests that count; `none` when `fetch` rejects. -/
structure Answers where
  create : Option Response
  start : Option Response

structure Creation where
  image : String
  env : List Text
  binds : List String
  restartPolicy : String
  attachStdout : Bool
  attachStderr : Bool

inductive Request where
  | stop
  | remove
  | create (body : Creation)
  | start (containerId : Option Json)

structure World where
  disk : Disk
  /-- What has been sent to Docker. -/
  requests : List Request

def World.send (world : World) (request : Request) : World :=
  { world with requests := world.requests ++ [request] }

structure DownloadResult where
  success : Bool
  message : String
  appids : List JsNumber

/-- `STEAM_USER` and `STEAM_PASSWORD`, or the empty text. -/
structure Credentials where
  user : Text
  password : Text

/-- `JSON.stringify` of a number. -/
def numberJson (numberText : JsNumber → Text) : JsNumber → Text
  | .finite value => numberText (.finite value)
  | .infinite _ => "null".toList

/-- `JSON.stringify(appids)`. -/
def gamesJson (numberText : JsNumber → Text) (appids : List JsNumber) : Text :=
  '[' :: ([','].intercalate (appids.map (numberJson numberText)) ++ [']'])

/-- Both requests are sent, whatever becomes of the first. -/
def stopContainer (world : World) : World := (world.send .stop).send .remove

def creation (numberText : JsNumber → Text) (credentials : Credentials) (appids : List JsNumber) : Creation where
  image := "qstratus_steamcmd"
  env :=
    ["GAMES=".toList ++ gamesJson numberText appids, "STEAM_USER=".toList ++ credentials.user,
      "STEAM_PASSWORD=".toList ++ credentials.password].filter fun text => text ≠ []
  binds := ["qstratus_steam_data:/data/steam"]
  restartPolicy := "no"
  attachStdout := true
  attachStderr := true

def triggerDownload (numberText : JsNumber → Text) (credentials : Credentials) (answers : Answers)
    (appids : List JsNumber) (world : World) : DownloadResult × World :=
  let thrown : DownloadResult := { success := false, message := "Failed to trigger download", appids := appids }
  if appids.length = 0 then ({ success := false, message := "No AppIDs provided", appids := [] }, world)
  else
    let world := (stopContainer world).send (.create (creation numberText credentials appids))
    match answers.create with
    | none => (thrown, world)
    | some resp =>
        if !resp.ok then
          match resp.text with
          | none => (thrown, world)
          | some err =>
              ({ success := false, message := "Failed to create download container: " ++ err, appids := appids },
                world)
        else
          match resp.json with
          | none => (thrown, world)
          -- `null` has no `Id`
          | some .null => (thrown, world)
          | some body =>
              let world := world.send (.start (body.field "Id"))
              match answers.start with
              | none => (thrown, world)
              | some startResp =>
                  if !startResp.ok then
                    ({ success := false, message := "Failed to start download container", appids := appids }, world)
                  else ({ success := true, message := "Download started", appids := appids }, world)

/-! ### One call -/

/-- Docker has created a container and started it. -/
def Accepted (answers : Answers) (appids : List JsNumber) : Prop :=
  appids ≠ [] ∧
    (∃ resp, answers.create = some resp ∧ resp.ok = true ∧ ∃ body, resp.json = some body ∧ body ≠ .null) ∧
      ∃ resp, answers.start = some resp ∧ resp.ok = true

section

variable (numberText : JsNumber → Text) (credentials : Credentials) (answers : Answers) (appids : List JsNumber)
  (world : World)

theorem disk_triggerDownload : (triggerDownload numberText credentials answers appids world).2.disk = world.disk := by
  unfold triggerDownload
  dsimp only
  split
  · rfl
  · split
    · rfl
    · split
      · split <;> rfl
      · split
        · rfl
        · rfl
        · split
          · rfl
          · split <;> rfl

/-- The container gets the queue in its environment. -/
theorem triggerDownload_accepted (h : Accepted answers appids) : ∃ containerId,
    triggerDownload numberText credentials answers appids world =
      ({ success := true, message := "Download started", appids := appids },
        ((stopContainer world).send (.create (creation numberText credentials appids))).send
          (.start containerId)) := by
  obtain ⟨hne, ⟨resp, hcreate, hok, body, hjson, hbody⟩, startResp, hstart, hstarted⟩ := h
  refine ⟨body.field "Id", ?_⟩
  unfold triggerDownload
  dsimp only
  rw [if_neg (mt List.length_eq_zero_iff.mp hne), hcreate]
  dsimp only
  rw [if_neg (by rw [hok]; decide), hjson]
  cases body with
  | null => exact absurd rfl hbody
  | _ =>
      dsimp only
      rw [hstart]
      dsimp only
      rw [if_neg (by rw [hstarted]; decide)]

theorem accepted_of_success
    (h : (triggerDownload numberText credentials answers appids world).1.success = true) :
    Accepted answers appids := by
  unfold triggerDownload at h
  dsimp only at h
  split at h
  · cases h
  · next hne =>
    split at h
    · cases h
    · next resp hcreate =>
      split at h
      · split at h <;> cases h
      · next hok =>
        split at h
        · cases h
        · cases h
        · next body hbody hjson =>
          split at h
          · cases h
          · next startResp hstart =>
            split at h
            · cases h
            · next hstarted =>
              simp only [Bool.not_eq_true', Bool.not_eq_false] at hok hstarted
              exact ⟨mt List.length_eq_zero_iff.mpr hne, ⟨resp, hcreate, hok, body, hjson, hbody⟩,
                startResp, hstart, hstarted⟩

theorem success_iff :
    (triggerDownload numberText credentials answers appids world).1.success = true ↔ Accepted answers appids := by
  refine ⟨accepted_of_success numberText credentials answers appids world, fun h => ?_⟩
  obtain ⟨_, heq⟩ := triggerDownload_accepted numberText credentials answers appids world h
  rw [heq]

theorem appids_getDownloadStatus (disk : Disk) (inspect : Option Inspect) :
    (getDownloadStatus numberText disk inspect).appids = getQueuedAppIds disk := by
  unfold getDownloadStatus
  dsimp only
  split
  · next hempty => exact (List.length_eq_zero_iff.mp hempty).symm
  · cases inspect with
    | none => rfl
    | some inspect =>
        dsimp only
        split <;> rfl

end

/-! ### Calls after each other -/

inductive Event where
  | trigger (answers : Answers) (appids : List JsNumber)
  /-- The container goes on, or another program writes there. -/
  | files (steamApps logs : Directory)

/-- The world after some calls, and the queue of the last one that has succeeded. -/
structure Service where
  world : World
  started : Option (List JsNumber)

section

variable (numberText : JsNumber → Text) (credentials : Credentials)

def Service.next (service : Service) : Event → Service
  | .trigger answers appids =>
      let called := triggerDownload numberText credentials answers appids service.world
      { world := called.2, started := if called.1.success then some appids else service.started }
  | .files steamApps logs =>
      { service with
        world := { service.world with disk := { service.world.disk with steamApps := steamApps, logs := logs } } }

def Service.run (service : Service) (events : List Event) : Service :=
  events.foldl (Service.next numberText credentials) service

/-- The status has this queue, whatever has become of the container. -/
def Reported (service : Service) (appids : List JsNumber) : Prop :=
  ∀ inspect, (getDownloadStatus numberText service.world.disk inspect).appids = appids

/-- After any of the events the status has the queue that was triggered last, and a call that fails does
not change it. -/
def Reports (start : Service) (events : List Event) : Prop :=
  ∀ before after, events = before ++ after →
    (∀ appids, (start.run numberText credentials before).started = some appids →
      Reported numberText (start.run numberText credentials before) appids) ∧
    ∀ answers appids rest queue, after = .trigger answers appids :: rest →
      (triggerDownload numberText credentials answers appids
        (start.run numberText credentials before).world).1.success = false →
      Reported numberText (start.run numberText credentials before) queue →
      Reported numberText (start.run numberText credentials (before ++ [.trigger answers appids])) queue

theorem reported_iff {service : Service} {appids : List JsNumber} :
    Reported numberText service appids ↔ getQueuedAppIds service.world.disk = appids := by
  unfold Reported
  simp only [appids_getDownloadStatus, forall_const]

theorem games_next (service : Service) (event : Event) :
    (service.next numberText credentials event).world.disk.games = service.world.disk.games := by
  cases event with
  | trigger answers appids => exact congrArg Disk.games (disk_triggerDownload _ _ _ _ _)
  | files steamApps logs => rfl

theorem run_snoc (service : Service) (events : List Event) (event : Event) :
    service.run numberText credentials (events ++ [event]) =
      (service.run numberText credentials events).next numberText credentials event := by
  rw [Service.run, List.foldl_append]
  rfl

/-- No call writes the file. -/
theorem games_run (service : Service) (events : List Event) :
    getQueuedAppIds (service.run numberText credentials events).world.disk =
      getQueuedAppIds service.world.disk := by
  unfold getQueuedAppIds
  induction events using List.reverseRecOn with
  | nil => rfl
  | append_singleton events event ih => rw [run_snoc, games_next, ih]

theorem started_next {service : Service} {event : Event} {appids : List JsNumber}
    (h : (service.next numberText credentials event).started = some appids) :
    (∃ answers, event = .trigger answers appids ∧ Accepted answers appids) ∨ service.started = some appids := by
  cases event with
  | trigger answers appids' =>
      unfold Service.next at h
      dsimp only at h
      split at h
      · next hsuccess =>
        obtain rfl := Option.some.inj h
        exact .inl ⟨answers, rfl, (success_iff _ _ _ _ _).mp hsuccess⟩
      · exact .inr h
  | files steamApps logs => exact .inr h

theorem started_run {service : Service} {events : List Event} {appids : List JsNumber}
    (hnone : service.started = none) (h : (service.run numberText credentials events).started = some appids) :
    ∃ answers, .trigger answers appids ∈ events ∧ Accepted answers appids := by
  induction events using List.reverseRecOn with
  | nil => cases hnone.symm.trans h
  | append_singleton events event ih =>
      rw [run_snoc] at h
      obtain ⟨answers, rfl, haccepted⟩ | h := started_next numberText credentials h
      · exact ⟨answers, List.mem_append_right _ List.mem_cons_self, haccepted⟩
      · obtain ⟨answers, hmem, haccepted⟩ := ih h
        exact ⟨answers, List.mem_append_left _ hmem, haccepted⟩

/-- For every sequence of calls and every answer of Docker, from any files. -/
theorem reports_iff (world : World) (events : List Event) :
    Reports numberText credentials { world := world, started := none } events ↔
      ∀ answers appids, Event.trigger answers appids ∈ events → Accepted answers appids →
        getQueuedAppIds world.disk = appids := by
  constructor
  · intro h answers appids hmem haccepted
    obtain ⟨before, after, rfl⟩ := List.append_of_mem hmem
    have hstarted : (Service.run numberText credentials { world := world, started := none }
        (before ++ [.trigger answers appids])).started = some appids := by
      rw [run_snoc]
      exact if_pos ((success_iff _ _ _ _ _).mpr haccepted)
    have hreported := (h (before ++ [.trigger answers appids]) after
      (by rw [List.append_assoc, List.singleton_append])).1 appids hstarted
    rw [reported_iff, games_run] at hreported
    exact hreported
  · rintro h before after rfl
    constructor
    · intro appids hstarted
      obtain ⟨answers, hmem, haccepted⟩ := started_run numberText credentials rfl hstarted
      rw [reported_iff, games_run]
      exact h answers appids (List.mem_append_left _ hmem) haccepted
    · intro answers appids rest queue _ _ hreported
      rw [reported_iff, games_run] at hreported ⊢
      exact hreported

end

def anonymous : Credentials where
  user := []
  password := []

/-- Docker creates a container and starts it. -/
def willing : Answers where
  create := some { status := 201, text := none, json := some (.obj [("Id", .str "c1")]) }
  start := some { status := 204, text := some "", json := none }

/-- Docker does not know the image. -/
def unwilling : Answers where
  create := some { status := 404, text := some "No such image", json := none }
  start := none

def queued (games : Option (List JsNumber)) : World where
  disk := { games := games, steamApps := counterStrikeManifest, logs := errorLog "steamcmd_440_error.log" }
  requests := []

theorem reports_queued : Reports integerText anonymous { world := queued (some [.finite 730]), started := none }
    [.trigger willing [.finite 730], .trigger unwilling [.finite 440]] := by
  refine (reports_iff integerText anonymous (queued (some [.finite 730])) _).mpr ?_
  rintro answers appids hmem ⟨-, ⟨resp, hcreate, hok, -⟩, -⟩
  obtain heq | hmem := List.mem_cons.mp hmem
  · cases heq
    rfl
  · cases List.mem_singleton.mp hmem
    cases hcreate
    cases hok

theorem not_reports_unqueued :
    ((Service.run integerText anonymous { world := queued none, started := none }
      [.trigger willing [.finite 730]]).started = some [.finite 730]) ∧
      (getDownloadStatus integerText (Service.run integerText anonymous { world := queued none, started := none }
        [.trigger willing [.finite 730]]).world.disk (some running)).appids = [] ∧
      ¬ Reports integerText anonymous { world := queued none, started := none } [.trigger willing [.finite 730]] := by
  have hstarted : (Service.run integerText anonymous { world := queued none, started := none }
      [.trigger willing [.finite 730]]).started = some [.finite 730] := by
    decide
  refine ⟨hstarted, by decide, fun h => ?_⟩
  have hreported := (h _ [] (List.append_nil _).symm).1 _ hstarted (some running)
  exact absurd hreported (by decide)

end Stratus.Backend.Download
