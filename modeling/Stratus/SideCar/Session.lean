import Stratus.Lib.CString
import Stratus.Lib.Json

/-! `api.c` and `session.c`: what the daemon makes of a message of the backend.  A message is
given as what `cJSON_Parse` makes of it, and a text by the bytes before its terminator. -/
namespace Stratus.SideCar

open Stratus.Lib

/-! ### `cJSON` -/

/-- `valuestring` of a string; a zero in it ends the text. -/
def valueString : Option Json → Option (List UInt8)
  | some (.str text) => some (cString (utf8 text))
  | _ => none

def intMax : Int := 2147483647

def intMin : Int := -2147483648

/-- `valueint` of a number: the whole part, within the bounds of an `int`. -/
def valueInt : Option Json → Option Int
  | some (.num value) =>
      if intMax ≤ value then some intMax
      else if value ≤ intMin then some intMin
      else some (if 0 ≤ value then value.floor else value.ceil)
  | _ => none

/-! ### `api.c` -/

/-- `struct api_msg_start_session`. -/
structure StartSession where
  sessionId : List UInt8
  gameId : List UInt8
  width : Int
  height : Int
  userId : List UInt8
  userName : List UInt8

/-- The call of a handler, with what it is given. -/
inductive Call where
  | start (data : StartSession)
  | stop (sessionId : List UInt8)

/-- `none` where the message is not valid. -/
def apiRecvStartSession (payload : Json) : Option StartSession := do
  let sessionId ← valueString (payload.field "session_id")
  let gameId ← valueString (payload.field "game_id")
  let width ← valueInt (payload.field "width")
  let height ← valueInt (payload.field "height")
  let userId ← valueString (payload.field "user_id")
  let userName ← valueString (payload.field "user_name")
  return ⟨sessionId, gameId, width, height, userId, userName⟩

def apiRecvStopSession (payload : Json) : Option (List UInt8) :=
  valueString (payload.field "session_id")

/-- The handler that is called for a message, unless `api_recv` returns -1 itself. -/
def apiRecv (json : Json) : Option Call :=
  match json.field "type", json.field "payload" with
  | some (.str type), some (.obj fields) =>
      if type = "start_session" then (apiRecvStartSession (.obj fields)).map .start
      else if type = "stop_session" then (apiRecvStopSession (.obj fields)).map .stop
      else none
  | _, _ => none

/-! ### `steam_launcher.c` -/

inductive GameSource where
  | none
  | seed
  | steam
  | nonSteam
  | manual
deriving DecidableEq

structure GameEntry where
  id : List UInt8
  title : List UInt8
  source : GameSource
  appid : Int
  installdir : List UInt8

def maxGamesCatalog : Nat := 64

def steamRegisterGame (catalog : List GameEntry) (id title : List UInt8) (source : GameSource)
    (appid : Int) (installdir : List UInt8) : List GameEntry :=
  if maxGamesCatalog ≤ catalog.length then catalog
  else catalog ++ [⟨id.take 36, title.take 127, source, appid, installdir.take 255⟩]

def steamFindGameById (catalog : List GameEntry) (id : List UInt8) : Option GameEntry :=
  catalog.find? fun entry => entry.id = id

/-- The catalog of a daemon: `sidecar_heartbeat` alone adds to it, with 0 for an appid. -/
inductive Scanned : List GameEntry → Prop where
  | empty : Scanned []
  | register {catalog : List GameEntry} (id name : List UInt8) : Scanned catalog →
      Scanned (steamRegisterGame catalog id name .steam 0 name)

theorem Scanned.appid {catalog : List GameEntry} (h : Scanned catalog) :
    ∀ entry ∈ catalog, entry.appid = 0 := by
  induction h with
  | empty => exact nofun
  | @register catalog id name _ ih =>
      intro entry hmem
      rw [steamRegisterGame] at hmem
      split at hmem
      · exact ih entry hmem
      · rcases List.mem_append.mp hmem with hmem | hmem
        · exact ih entry hmem
        · obtain rfl := List.mem_singleton.mp hmem
          rfl

/-! ### `session.c` -/

def uuidLen : Nat := 37

def maxGamePath : Nat := 128

def maxDimensionsLen : Nat := 10

/-- The members of `struct session` that `session_start` has from the message. -/
structure Session where
  id : List UInt8
  gameId : List UInt8
  width : Int
  height : Int

/-- What becomes of the game: Steam runs it, an assertion fails, or it is a process with a
path and `STRATUS_DIMENSIONS`. -/
inductive Launch where
  | steam (appid : Int)
  | aborted
  | exec (path dimensions : List UInt8)

/-- The text `WxH`. -/
def dimensionsText (width height : Int) : List UInt8 := decimal width ++ 120 :: decimal height

def launchesSteam (entry : GameEntry) : Bool := entry.source = .steam && 0 < entry.appid

def sessionLaunchGame (gameDir : List UInt8) (catalog : List GameEntry) (gameId : List UInt8)
    (width height : Int) : Launch :=
  match (steamFindGameById catalog gameId).filter launchesSteam with
  | some entry => .steam entry.appid
  | none =>
      if gameDir.length + 1 + uuidLen < maxGamePath then
        .exec (snprintf maxGamePath (gameDir ++ 47 :: gameId))
          (snprintf maxDimensionsLen (dimensionsText width height))
      else .aborted

/-- The session of a message, when nothing runs out. -/
def sessionOf (data : StartSession) : Session where
  id := strncpy uuidLen data.sessionId
  gameId := strncpy uuidLen data.gameId
  width := data.width
  height := data.height

/-- The call in `session_start`.  The zeros of the padding follow an id that fills its
array. -/
def Session.launch (gameDir : List UInt8) (catalog : List GameEntry) (session : Session) : Launch :=
  sessionLaunchGame gameDir catalog (cString session.gameId) session.width session.height

/-- Steam is never called, since no game has an appid. -/
theorem sessionLaunchGame_scanned {catalog : List GameEntry} (h : Scanned catalog)
    (gameDir gameId : List UInt8) (width height : Int) :
    sessionLaunchGame gameDir catalog gameId width height =
      if gameDir.length + 1 + uuidLen < maxGamePath then
        .exec (snprintf maxGamePath (gameDir ++ 47 :: gameId))
          (snprintf maxDimensionsLen (dimensionsText width height))
      else .aborted := by
  have hnone : (steamFindGameById catalog gameId).filter launchesSteam = none := by
    rw [Option.filter_eq_none_iff]
    intro entry hfound
    have happid := h.appid entry (List.mem_of_find?_eq_some hfound)
    simp [launchesSteam, happid]
  rw [sessionLaunchGame, hnone]

end Stratus.SideCar
