import Stratus.Lib.Json
import Stratus.Lib.OrderedMap
import Stratus.Lib.Transition

/-! `node.ts`, `sessions.ts`, `send.ts` and `messages.ts`: the backend's side of sessions on
nodes.  Every function runs to its end; what `Date.now()` and `uuidv4()` give is handed to
it. -/
namespace Stratus.Backend

open Stratus.Lib

/-- A `WebSocket` object. -/
abbrev Socket := Nat

structure NodePayload where
  hostname : String
  games : List Json
  sessions : List Json
  ip : String

structure NodeInfo where
  name : String
  lastHeartbeat : Nat
  nodePayload : NodePayload

structure Session where
  start : Nat
  node : String
  sessionId : String
  gameId : Json
  width : Json
  height : Json
  userId : String
  userName : String

/-- The arguments of `startGameSession`. -/
structure StartRequest where
  gameId : Json
  userId : String
  userName : String
  width : Json
  height : Json

/-- A `start_session` message. -/
structure StartMessage where
  requestId : String
  sessionId : String
  request : StartRequest

/-- A `start_confirmed` message with the fields that are read. -/
structure ConfirmStart where
  requestId : Option Json
  sessionId : Json
  tlsFingerprint : Json
  ip : Option Json

/-- A call of `startGameSession` that has sent its message, to a node with that host name
and address then: `results` are the calls of `resolve` and `timer` tells whether the
timeout has fired. -/
structure Start where
  socket : Socket
  message : StartMessage
  hostname : String
  ip : String
  results : List (Option ConfirmStart)
  timer : Bool

/-- The variables of the modules.  The function that `pendingStarts` holds for a request
is given by the place of its start in `starts`. -/
structure Broker where
  nodes : OrderedMap Socket NodeInfo
  lastClear : Nat
  sessions : OrderedMap String Session
  pendingStarts : OrderedMap String Nat
  pendingStartSessions : OrderedMap String String
  starts : List Start

namespace Broker

def init (now : Nat) : Broker where
  nodes := .empty
  lastClear := now
  sessions := .empty
  pendingStarts := .empty
  pendingStartSessions := .empty
  starts := []

/-! ### `sessions.ts` -/

def createSession (b : Broker) (s : Session) : Broker :=
  { b with sessions := b.sessions.set s.sessionId s }

def pruneNodeSessions (b : Broker) (node : String) (nodeSessions : List Json) : Broker :=
  { b with
    sessions := b.sessions.deleteWhere fun _ s =>
      s.node = node && !Json.includes nodeSessions (.str s.sessionId) }

def deleteNodeSessions (b : Broker) (node : String) : Broker :=
  { b with sessions := b.sessions.deleteWhere fun _ s => s.node = node }

def deleteSession (b : Broker) (id : String) : Broker :=
  { b with sessions := b.sessions.delete id }

/-! ### `node.ts` -/

def clearFrequency : Nat := 60 * 60 * 1000

/-- No heartbeat for two minutes. -/
def unresponsive (now : Nat) (node : NodeInfo) : Bool := 120000 < now - node.lastHeartbeat

def getNodeIdentity (payload : NodePayload) : String := payload.hostname ++ ":" ++ payload.ip

def deleteNode (b : Broker) (ws : Socket) : Broker :=
  let b := match b.nodes.get ws with
    | some node => b.deleteNodeSessions node.name
    | none => b
  { b with nodes := b.nodes.delete ws }

/-- The loop `for (const [ws, node] of nodes.entries())` that deletes the nodes it is to. -/
def deleteNodesWhere (p : Socket → NodeInfo → Bool) : List Socket → Broker → Broker
  | [], b => b
  | ws :: rest, b =>
      match b.nodes.get ws with
      | some node => deleteNodesWhere p rest (if p ws node then b.deleteNode ws else b)
      | none => deleteNodesWhere p rest b

def clearUnresponsive (b : Broker) (now : Nat) : Broker :=
  deleteNodesWhere (fun _ node => unresponsive now node) b.nodes.keys b

def deleteDuplicateNodes (b : Broker) (currentWs : Socket) (payload : NodePayload) : Broker :=
  deleteNodesWhere (fun ws node =>
    ws ≠ currentWs && getNodeIdentity node.nodePayload = getNodeIdentity payload) b.nodes.keys b

/-- `none` where the payload is not valid or not an object. -/
def validPayload (payload : Json) : Option NodePayload :=
  match payload.field "hostname", payload.field "games", payload.field "sessions",
    payload.field "ip" with
  | some (.str hostname), some (.arr games), some (.arr sessions), some (.str ip) =>
      some ⟨hostname, games, sessions, ip⟩
  | _, _, _, _ => none

/-- Now and then the nodes that have not been heard of are removed. -/
def clearNow (b : Broker) (now : Nat) : Broker :=
  if clearFrequency < now - b.lastClear then clearUnresponsive { b with lastClear := now } now else b

/-- The name of a node is the host name of its first heartbeat. -/
def nodeName (b : Broker) (ws : Socket) (payload : NodePayload) : String :=
  match b.nodes.get ws with
  | some node => node.name
  | none => payload.hostname

/-- `updateHeartbeat` on a valid payload. -/
def updateHeartbeat (b : Broker) (now : Nat) (ws : Socket) (payload : NodePayload) : Broker :=
  let b := (b.clearNow now).deleteDuplicateNodes ws payload
  let name := b.nodeName ws payload
  let b := { b with nodes := b.nodes.set ws ⟨name, now, payload⟩ }
  b.pruneNodeSessions name payload.sessions

/-- The session is added to the last heartbeat of the node, which is no longer free then. -/
def reserve (node : NodeInfo) (sessionId : String) : NodeInfo :=
  { node with
    nodePayload := { node.nodePayload with
      sessions := node.nodePayload.sessions ++ [.str sessionId] } }

def findLoop (now : Nat) (gameId : Json) (sessionId : String) :
    List Socket → Broker → Broker × Option Socket
  | [], b => (b, none)
  | ws :: rest, b =>
      match b.nodes.get ws with
      | none => findLoop now gameId sessionId rest b
      | some node =>
          if unresponsive now node then findLoop now gameId sessionId rest (b.deleteNode ws)
          else if Json.includes node.nodePayload.games gameId &&
              node.nodePayload.sessions.length = 0 then
            ({ b with nodes := b.nodes.set ws (reserve node sessionId) }, some ws)
          else findLoop now gameId sessionId rest b

def findNodeByGame (b : Broker) (now : Nat) (gameId : Json) (sessionId : String) :
    Broker × Option Socket :=
  findLoop now gameId sessionId b.nodes.keys b

/-! ### `send.ts` -/

def resolve (b : Broker) (i : Nat) (result : Option ConfirmStart) : Broker :=
  { b with
    starts := b.starts.modify i fun start => { start with results := start.results ++ [result] } }

/-- The promise's executor, once a node has been found. -/
def sendStart (b : Broker) (now : Nat) (ws : Socket) (message : StartMessage) : Broker :=
  let hostname := match b.nodes.get ws with
    | some node => node.nodePayload.hostname
    | none => "Unknown"
  let ip := match b.nodes.get ws with
    | some node => node.nodePayload.ip
    | none => ""
  let started : Start := ⟨ws, message, hostname, ip, [], false⟩
  let b :=
    { b with
      pendingStarts := b.pendingStarts.set message.requestId b.starts.length
      pendingStartSessions := b.pendingStartSessions.set message.sessionId message.requestId
      starts := b.starts ++ [started] }
  b.createSession
    { start := now / 1000
      node := hostname
      sessionId := message.sessionId
      gameId := message.request.gameId
      width := message.request.width
      height := message.request.height
      userId := message.request.userId
      userName := message.request.userName }

/-- The result is the socket that the message is sent to, if there is one. -/
def startGameSession (b : Broker) (now : Nat) (message : StartMessage) : Broker × Option Socket :=
  match b.findNodeByGame now message.request.gameId message.sessionId with
  | (b, none) => (b, none)
  | (b, some ws) => (b.sendStart now ws message, some ws)

/-- The timer of a start. -/
def timeout (b : Broker) (i : Nat) : Broker :=
  let b := { b with starts := b.starts.modify i fun start => { start with timer := true } }
  match b.starts[i]? with
  | none => b
  | some start =>
      if b.pendingStarts.has start.message.requestId then
        let b :=
          { b with
            pendingStarts := b.pendingStarts.delete start.message.requestId
            pendingStartSessions := b.pendingStartSessions.delete start.message.sessionId }
        (b.deleteSession start.message.sessionId).resolve i none
      else b

/-- The request that a confirmation is taken for. -/
def matching (b : Broker) (confirm : ConfirmStart) : Option String :=
  let bySession := match confirm.sessionId with
    | .str sessionId => b.pendingStartSessions.get sessionId
    | _ => none
  match confirm.requestId with
  | some (.str requestId) => if b.pendingStarts.has requestId then some requestId else bySession
  | _ => bySession

def deletePendingSession (b : Broker) : Json → Broker
  | .str sessionId =>
      { b with pendingStartSessions := b.pendingStartSessions.delete sessionId }
  | _ => b

def resolveStart (b : Broker) (confirm : ConfirmStart) : Broker :=
  match b.matching confirm with
  | none => b
  | some requestId =>
      if requestId = "" then b
      else
        match b.pendingStarts.get requestId with
        | none => b
        | some i =>
            let b := { b with pendingStarts := b.pendingStarts.delete requestId }
            (b.deletePendingSession confirm.sessionId).resolve i (some confirm)

/-! ### `messages.ts` -/

/-- The confirmation in a message, with the address of its sender if that is known;
`none` where the function throws. -/
def confirmOf (b : Broker) (ws : Socket) (message : Json) : Option ConfirmStart :=
  match message.field "payload" with
  | none => none
  | some payload =>
      match payload.field "session_id", payload.field "tls_fingerprint" with
      | some sessionId, some tlsFingerprint =>
          if sessionId.truthy && tlsFingerprint.truthy then
            some
              { requestId := message.field "request_id"
                sessionId := sessionId
                tlsFingerprint := tlsFingerprint
                ip := match b.nodes.get ws with
                  | some node => some (.str node.nodePayload.ip)
                  | none => payload.field "ip" }
          else none
      | _, _ => none

def startConfirmed (b : Broker) (ws : Socket) (message : Json) : Broker :=
  match b.confirmOf ws message with
  | none => b
  | some confirm => b.resolveStart confirm

/-- The session that a `stop_session` or a `session_error` is for. -/
def sessionOf (message : Json) : Option String :=
  match (message.field "payload").bind (Json.field "session_id") with
  | some (.str sessionId) => some sessionId
  | _ => none

/-- `stop_session` and `session_error` do the same. -/
def sessionOver (b : Broker) (message : Json) : Broker :=
  match sessionOf message with
  | some sessionId => b.deleteSession sessionId
  | none => b

def heartbeat (b : Broker) (now : Nat) (ws : Socket) (message : Json) : Broker :=
  match (message.field "payload").bind validPayload with
  | some payload => b.updateHeartbeat now ws payload
  | none => b

def handleMessage (b : Broker) (now : Nat) (ws : Socket) (message : Json) : Broker :=
  match message.field "type" with
  | some (.str "heartbeat") => b.heartbeat now ws message
  | some (.str "start_confirmed") => b.startConfirmed ws message
  | some (.str "stop_session") => b.sessionOver message
  | some (.str "node_disconnect") => b.deleteNode ws
  | some (.str "session_error") => b.sessionOver message
  | _ => b

/-! ### Runs -/

inductive Event where
  | start (now : Nat) (message : StartMessage)
  | message (now : Nat) (ws : Socket) (message : Json)
  /-- The connection is closed or has failed. -/
  | close (ws : Socket)
  | timer (i : Nat)

def apply (b : Broker) : Event → Broker
  | .start now message => (b.startGameSession now message).1
  | .message now ws message => b.handleMessage now ws message
  | .close ws => b.deleteNode ws
  | .timer i => b.timeout i

/-- Ids are new and not empty, and a timer fires once. -/
def Enabled (b : Broker) : Event → Prop
  | .start _ message => message.requestId ≠ "" ∧ message.sessionId ≠ "" ∧
      ∀ start ∈ b.starts, start.message.requestId ≠ message.requestId ∧
        start.message.sessionId ≠ message.sessionId
  | .timer i => ∃ start, b.starts[i]? = some start ∧ start.timer = false
  | .message .. | .close _ => True

/-- The runs in which every event is allowed. -/
def system (allowed : Broker → Event → Prop) : Labelled Broker Event where
  init b := ∃ now, b = init now
  step b event b' := b.Enabled event ∧ allowed b event ∧ b.apply event = b'

end Broker

end Stratus.Backend
