import Stratus.Backend.Accounts
import Stratus.Backend.BrokerEffects
import Stratus.SideCar.Session

/-! A `start_session` on its way from the body of a request to the game: `playController.ts`,
`send.ts`, `api.c` and `session.c` each take other values. -/
namespace Stratus.Backend

open Stratus.Lib

/-- A member of the body that is there and truthy. -/
def given (body : Json) (key : String) : Option Json := (body.field key).filter Json.truthy

/-- `whitelist && !whitelist.includes(username)`. -/
def restricted (whitelist : Option (List Json)) (username : String) : Bool :=
  whitelist.any fun names => !Json.includes names (.str username)

/-- `ControllerCreateSession` up to the call of `startGameSession`.  `getUserById` gives the
name of a user. -/
def controllerCreateSession (jwt : Jwt) (getUserById : String → Option String)
    (whitelist : Option (List Json)) (body : Json) (authorization : Option String) :
    Except (Nat × String) StartRequest :=
  match given body "game_id", given body "height", given body "width" with
  | some gameId, some height, some width =>
      match getTokenFromAuthorizationHeader authorization >>= jwt.verify with
      | .error message => .error (401, message)
      | .ok decodedToken =>
          if decodedToken.userId = "" then .error (403, "Invalid token for user")
          else
            match getUserById decodedToken.userId with
            | none => .error (403, "User not found")
            | some username =>
                if restricted whitelist username then
                  .error (403, "Sorry, access is temporarily restricted")
                else .ok ⟨gameId, decodedToken.userId, username, width, height⟩
  | _, _, _ => .error (400, "Missing requested data are required")

theorem field_of_given {body value : Json} {key : String} (h : given body key = some value) :
    body.field key = some value :=
  (Option.filter_eq_some_iff.mp h).1

/-- An accepted body has the members that are sent. -/
theorem controllerCreateSession_ok {jwt : Jwt} {getUserById : String → Option String}
    {whitelist : Option (List Json)} {body : Json} {authorization : Option String}
    {request : StartRequest}
    (h : controllerCreateSession jwt getUserById whitelist body authorization = .ok request) :
    body.field "game_id" = some request.gameId ∧ body.field "width" = some request.width ∧
      body.field "height" = some request.height := by
  unfold controllerCreateSession at h
  split at h
  · next gameId height width hgame hheight hwidth =>
    split at h
    · cases h
    · split at h
      · cases h
      · split at h
        · cases h
        · split at h
          · cases h
          · cases h
            exact ⟨field_of_given hgame, field_of_given hwidth, field_of_given hheight⟩
  · cases h

/-- The message that is sent. -/
def StartMessage.json (message : StartMessage) (timestamp : String) : Json :=
  .obj
    [("type", .str "start_session"),
      ("request_id", .str message.requestId),
      ("timestamp", .str timestamp),
      ("payload", .obj
        [("session_id", .str message.sessionId),
          ("game_id", message.request.gameId),
          ("width", message.request.width),
          ("height", message.request.height),
          ("user_id", .str message.request.userId),
          ("user_name", .str message.request.userName)])]

end Stratus.Backend

namespace Stratus.SideCar

open Stratus.Lib Stratus.Backend

/-- An array that holds an id and its terminator. -/
def HoldsId (array : List UInt8) (id : Json) : Prop :=
  0 ∈ array ∧ ∃ text, id = .str text ∧ cString array = utf8 text

/-- The daemon takes the message and runs the session and the game it is about. -/
def RunsAsSent (gameDir : List UInt8) (catalog : List GameEntry) (message : StartMessage)
    (timestamp : String) : Prop :=
  ∃ data, apiRecv (message.json timestamp) = some (.start data) ∧
    HoldsId (sessionOf data).id (.str message.sessionId) ∧
    HoldsId (sessionOf data).gameId message.request.gameId ∧
    message.request.width = .num (sessionOf data).width ∧
    message.request.height = .num (sessionOf data).height ∧
    ∃ path, (sessionOf data).launch gameDir catalog =
      .exec path (dimensionsText (sessionOf data).width (sessionOf data).height)

/-- The id of the game is a text of at most 36 bytes, the width and height are whole numbers
of at most eight digits together, and the path of the games is not too long. -/
structure Fits (gameDir : List UInt8) (body : Json) : Prop where
  gameId : ∃ text, body.field "game_id" = some (.str text) ∧ 0 ∉ utf8 text ∧
    (utf8 text).length < uuidLen
  dimensions : ∃ width height : Int, body.field "width" = some (.num width) ∧
    body.field "height" = some (.num height) ∧
    (decimal width).length + (decimal height).length ≤ 8
  gameDir : gameDir.length + 1 + uuidLen < maxGamePath

def uuidChars : List Char :=
  ['0', '1', '2', '3', '4', '5', '6', '7', '8', '9', 'a', 'b', 'c', 'd', 'e', 'f', '-']

/-- What `uuidv4` gives. -/
def IsUuid (text : String) : Prop :=
  text.toList.length = 36 ∧ text.toList.all fun c => uuidChars.contains c

theorem utf8_uuid {text : String} (h : IsUuid text) :
    0 ∉ utf8 text ∧ (utf8 text).length < uuidLen := by
  have hall : (uuidChars.all fun c => !(String.utf8EncodeChar c).contains 0 &&
      (String.utf8EncodeChar c).length == 1) = true := by decide
  have hchar : ∀ c ∈ text.toList,
      0 ∉ String.utf8EncodeChar c ∧ (String.utf8EncodeChar c).length = 1 := by
    intro c hc
    have hmem := List.contains_iff_mem.mp (List.all_eq_true.mp h.2 c hc)
    simpa using List.all_eq_true.mp hall c hmem
  constructor
  · intro hzero
    obtain ⟨c, hc, hmem⟩ := List.mem_flatMap.mp hzero
    exact (hchar c hc).1 hmem
  · have hlength : (utf8 text).length = text.toList.length := by
      rw [utf8, List.length_flatMap, List.map_congr_left fun c hc => (hchar c hc).2]
      simp
    rw [hlength, h.1]
    decide

theorem apiRecv_json (message : StartMessage) (timestamp : String) :
    apiRecv (message.json timestamp) =
      ((valueString (some message.request.gameId)).bind fun gameId =>
        (valueInt (some message.request.width)).bind fun width =>
          (valueInt (some message.request.height)).map fun height =>
            .start ⟨cString (utf8 message.sessionId), gameId, width, height,
              cString (utf8 message.request.userId), cString (utf8 message.request.userName)⟩) := by
  have hstart : apiRecv (message.json timestamp) = (do
      let gameId ← valueString (some message.request.gameId)
      let width ← valueInt (some message.request.width)
      let height ← valueInt (some message.request.height)
      return (⟨cString (utf8 message.sessionId), gameId, width, height,
        cString (utf8 message.request.userId),
        cString (utf8 message.request.userName)⟩ : StartSession)).map .start := rfl
  rw [hstart]
  cases valueString (some message.request.gameId) with
  | none => rfl
  | some gameId =>
      cases valueInt (some message.request.width) with
      | none => rfl
      | some width => cases valueInt (some message.request.height) <;> rfl

theorem valueInt_of_decimal {n : Int} (h : (decimal n).length ≤ 8) :
    valueInt (some (.num n)) = some n := by
  have hsmall := natAbs_lt_of_decimal (by decide) h
  have hmax : ¬ ((intMax : Int) : Rat) ≤ (n : Rat) := by
    rw [Rat.intCast_le_intCast, intMax]
    omega
  have hmin : ¬ (n : Rat) ≤ ((intMin : Int) : Rat) := by
    rw [Rat.intCast_le_intCast, intMin]
    omega
  rw [valueInt, if_neg hmax, if_neg hmin]
  split
  · rw [Rat.floor_intCast]
  · rw [Rat.ceil_intCast]

/-- An id is held if it is a text that leaves room for the terminator. -/
theorem holdsId_iff {id : Json} {bytes : List UInt8} (h : valueString (some id) = some bytes) :
    HoldsId (strncpy uuidLen bytes) id ↔
      ∃ text, id = .str text ∧ 0 ∉ utf8 text ∧ (utf8 text).length < uuidLen := by
  constructor
  · rintro ⟨hzero, text, rfl, htext⟩
    obtain rfl := Option.some.inj h
    have hbytes := zero_notMem_cString (utf8 text)
    rw [zero_mem_strncpy_iff hbytes] at hzero
    rw [cString_strncpy hbytes, List.take_of_length_le (Nat.le_of_lt hzero)] at htext
    rw [htext] at hbytes hzero
    exact ⟨text, rfl, hbytes, hzero⟩
  · rintro ⟨text, rfl, hbytes, hlength⟩
    obtain rfl := Option.some.inj h
    rw [cString_eq_self_iff.mpr hbytes]
    refine ⟨(zero_mem_strncpy_iff hbytes).mpr hlength, text, rfl, ?_⟩
    rw [cString_strncpy hbytes, List.take_of_length_le (Nat.le_of_lt hlength)]

theorem length_dimensionsText (width height : Int) :
    (dimensionsText width height).length = (decimal width).length + (decimal height).length + 1 := by
  rw [dimensionsText, List.length_append, List.length_cons, Nat.add_assoc]

/-- The game is a process with all of the text if the text and the path fit. -/
theorem launch_iff {catalog : List GameEntry} (hcatalog : Scanned catalog) (gameDir : List UInt8)
    (session : Session) :
    (∃ path, session.launch gameDir catalog =
      .exec path (dimensionsText session.width session.height)) ↔
    gameDir.length + 1 + uuidLen < maxGamePath ∧
      (decimal session.width).length + (decimal session.height).length ≤ 8 := by
  have hfits : snprintf maxDimensionsLen (dimensionsText session.width session.height) =
      dimensionsText session.width session.height ↔
      (decimal session.width).length + (decimal session.height).length ≤ 8 := by
    rw [snprintf_eq_self_iff, length_dimensionsText, maxDimensionsLen]
    omega
  rw [Session.launch, sessionLaunchGame_scanned hcatalog]
  split
  · next hdir =>
    constructor
    · rintro ⟨path, hexec⟩
      exact ⟨hdir, hfits.mp (Launch.exec.inj hexec).2⟩
    · rintro ⟨_, hlength⟩
      rw [hfits.mpr hlength]
      exact ⟨_, rfl⟩
  · next hdir =>
    constructor
    · rintro ⟨path, hexec⟩
      cases hexec
    · exact fun h => absurd h.1 hdir

/-- The last start of the broker is sent to the node that was found. -/
theorem startGameSession_sends {b : Broker} {now : Nat} {message : StartMessage} {ws : Socket}
    (h : (b.startGameSession now message).2 = some ws) :
    ∃ start, (b.startGameSession now message).1.starts.getLast? = some start ∧
      start.socket = ws ∧ start.message = message := by
  rcases b.startGameSession_cases now message with heq | ⟨ws', node, _, _, heq⟩
  · rw [heq] at h
    cases h
  · rw [heq] at h ⊢
    obtain rfl := Option.some.inj h
    exact ⟨_, List.getLast?_concat, rfl, rfl⟩

theorem runsAsSent_iff {gameDir : List UInt8} {catalog : List GameEntry}
    (hcatalog : Scanned catalog) {message : StartMessage} (huuid : IsUuid message.sessionId)
    (timestamp : String) {body : Json} (hgame : body.field "game_id" = some message.request.gameId)
    (hwidth : body.field "width" = some message.request.width)
    (hheight : body.field "height" = some message.request.height) :
    RunsAsSent gameDir catalog message timestamp ↔ Fits gameDir body := by
  obtain ⟨huuid, hlength⟩ := utf8_uuid huuid
  constructor
  · rintro ⟨data, hrecv, _, hgameId, hw, hh, hlaunch⟩
    rw [launch_iff hcatalog] at hlaunch
    refine ⟨?_, ⟨_, _, hw ▸ hwidth, hh ▸ hheight, hlaunch.2⟩, hlaunch.1⟩
    rw [apiRecv_json] at hrecv
    obtain ⟨gameId, hvalue, hrecv⟩ := Option.bind_eq_some_iff.mp hrecv
    obtain ⟨width, _, hrecv⟩ := Option.bind_eq_some_iff.mp hrecv
    obtain ⟨height, _, heq⟩ := Option.map_eq_some_iff.mp hrecv
    cases heq
    obtain ⟨text, htext, hrest⟩ := (holdsId_iff hvalue).mp hgameId
    exact ⟨text, htext ▸ hgame, hrest⟩
  · rintro ⟨⟨text, htext, hzero, hroom⟩, ⟨w, h, hw, hh, hdigits⟩, hdir⟩
    rw [hgame] at htext
    rw [hwidth] at hw
    rw [hheight] at hh
    have hgameId := Option.some.inj htext
    have hvalue : valueString (some message.request.gameId) = some (cString (utf8 text)) := by
      rw [hgameId]
      rfl
    have hrecv := apiRecv_json message timestamp
    rw [hvalue, Option.some.inj hw, Option.some.inj hh, valueInt_of_decimal (by omega),
      valueInt_of_decimal (by omega)] at hrecv
    refine ⟨_, hrecv, ?_, ?_, Option.some.inj hw, Option.some.inj hh, ?_⟩
    · exact (holdsId_iff rfl).mpr ⟨_, rfl, huuid, hlength⟩
    · exact (holdsId_iff hvalue).mpr ⟨text, hgameId, hzero, hroom⟩
    · exact (launch_iff hcatalog gameDir _).mpr ⟨hdir, hdigits⟩

/-- For every body that is accepted and for which a node is found, the node runs what was
sent exactly when the body fits. -/
theorem runsAsSent_iff_fits (jwt : Jwt) (getUserById : String → Option String)
    (whitelist : Option (List Json)) (body : Json) (authorization : Option String)
    (request : StartRequest) (b : Broker) (now : Nat) (requestId sessionId timestamp : String)
    (ws : Socket) (gameDir : List UInt8) (catalog : List GameEntry)
    (haccepted : controllerCreateSession jwt getUserById whitelist body authorization = .ok request)
    (hfound : (b.startGameSession now ⟨requestId, sessionId, request⟩).2 = some ws)
    (huuid : IsUuid sessionId) (hcatalog : Scanned catalog) :
    ∃ start, (b.startGameSession now ⟨requestId, sessionId, request⟩).1.starts.getLast? = some start ∧
      start.socket = ws ∧
      (RunsAsSent gameDir catalog start.message timestamp ↔ Fits gameDir body) := by
  obtain ⟨hgame, hwidth, hheight⟩ := controllerCreateSession_ok haccepted
  obtain ⟨start, hlast, hsocket, hmessage⟩ := startGameSession_sends hfound
  refine ⟨start, hlast, hsocket, ?_⟩
  rw [hmessage]
  exact runsAsSent_iff hcatalog huuid timestamp hgame hwidth hheight

/-! ### Two bodies -/

def sizeBody (width height : Rat) : Json :=
  .obj [("game_id", .str "game"), ("width", .num width), ("height", .num height)]

/-- Every token is valid. -/
def anyToken : Jwt := ⟨fun token => .ok token.userId, fun token => .ok ⟨token, none⟩⟩

/-- One node, which has the game. -/
def oneNode : Broker :=
  { Broker.init 0 with nodes := OrderedMap.empty.set 0 ⟨"node", 0, ⟨"node", [.str "game"], [], ""⟩⟩ }

def sizeRequest (width height : Rat) : StartRequest :=
  ⟨.str "game", "user", "name", .num width, .num height⟩

def someUuid : String := "01234567-89ab-4def-8123-456789abcdef"

theorem someUuid_isUuid : IsUuid someUuid := by
  constructor <;> rfl

def gamesBuild : List UInt8 := utf8 "../games/build"

/-- 1920 by 1080. -/
theorem runsAsSent_fullHd : ∃ start : Start,
    start.message.request = sizeRequest 1920 1080 ∧ RunsAsSent gamesBuild [] start.message "" := by
  have haccepted : controllerCreateSession anyToken (fun _ => some "name") none
      (sizeBody 1920 1080) (some "Bearer user") = .ok (sizeRequest 1920 1080) := rfl
  obtain ⟨start, hlast, _, hiff⟩ := runsAsSent_iff_fits anyToken (fun _ => some "name") none
    (sizeBody 1920 1080) (some "Bearer user") (sizeRequest 1920 1080) oneNode 0 "r" someUuid "" 0
    gamesBuild [] haccepted rfl someUuid_isUuid .empty
  refine ⟨start, ?_, hiff.mpr ⟨⟨"game", rfl, by decide, by decide⟩, ?_, by decide⟩⟩
  · obtain rfl := Option.some.inj hlast
    rfl
  · exact ⟨1920, 1080, rfl, rfl, by decide⟩

/-- 15360 by 8640: the game gets `15360x864`. -/
theorem large_dimensions_cut : ¬ ∀ (jwt : Jwt) (getUserById : String → Option String)
    (whitelist : Option (List Json)) (body : Json) (authorization : Option String)
    (request : StartRequest) (b : Broker) (now : Nat) (requestId sessionId timestamp : String)
    (ws : Socket),
    controllerCreateSession jwt getUserById whitelist body authorization = .ok request →
    (b.startGameSession now ⟨requestId, sessionId, request⟩).2 = some ws → IsUuid sessionId →
    ∃ start, (b.startGameSession now ⟨requestId, sessionId, request⟩).1.starts.getLast? = some start ∧
      RunsAsSent gamesBuild [] start.message timestamp := by
  intro h
  obtain ⟨start, hlast, data, hrecv, _, _, _, _, path, hlaunch⟩ := h anyToken (fun _ => some "name")
    none (sizeBody 15360 8640) (some "Bearer user") (sizeRequest 15360 8640) oneNode 0 "r" someUuid ""
    0 rfl rfl someUuid_isUuid
  obtain rfl := Option.some.inj hlast
  obtain rfl := Call.start.inj (Option.some.inj hrecv)
  have hcut := (Launch.exec.inj hlaunch).2
  revert hcut
  decide

end Stratus.SideCar
