import Stratus.Backend.BrokerRuns
import Stratus.SideCar.Daemon
import Stratus.SideCar.StartMessages

/-! The backend and any number of daemons.  Messages of one connection are delivered in
order, at any time; a daemon that has lost its connection opens another one. -/
namespace Stratus.SideCar

open Stratus.Lib Stratus.Backend

/-- An id as it stands in a message. -/
def idText (bytes : List UInt8) : Json := .str ((String.fromUTF8? bytes.toByteArray).getD "")

/-- `api_send_json`. -/
def envelope (type timestamp requestId : String) (payload : List (String × Json)) : Json :=
  .obj
    [("type", .str type), ("timestamp", .str timestamp), ("request_id", .str requestId),
      ("payload", .obj payload)]

/-- What is sent for a message: `stats` are the members of a heartbeat that the backend does
not read. -/
inductive Encodes : Sent → Json → Prop where
  | heartbeat (timestamp requestId hostname ip : String) (games : List String)
      (stats : List (String × Json)) (sessions : List (List UInt8)) :
      Encodes (.heartbeat sessions)
        (envelope "heartbeat" timestamp requestId
          ([("hostname", .str hostname), ("ip", .str ip), ("games", .arr (games.map .str)),
            ("sessions", .arr (sessions.map idText))] ++ stats))
  | startConfirmed (timestamp requestId tlsFingerprint : String) (sessionId : List UInt8) :
      Encodes (.startConfirmed sessionId)
        (envelope "start_confirmed" timestamp requestId
          [("session_id", idText sessionId), ("tls_fingerprint", .str tlsFingerprint)])
  | stopSession (timestamp requestId : String) (sessionId : List UInt8) :
      Encodes (.stopSession sessionId)
        (envelope "stop_session" timestamp requestId [("session_id", idText sessionId)])
  | sessionError (timestamp requestId : String) (sessionId : List UInt8) (description : String) :
      Encodes (.sessionError sessionId description)
        (envelope "session_error" timestamp requestId
          [("session_id", idText sessionId), ("description", .str description)])

/-- A daemon and its connection. -/
structure Node where
  daemon : Daemon
  socket : Option Socket

/-- `down` and `up` are on the way on each connection. -/
structure Cluster where
  broker : Broker
  node : Nat → Node
  down : Socket → List Json
  up : Socket → List Json
  sockets : Nat

namespace Cluster

def init (now : Nat) : Cluster where
  broker := .init now
  node _ := ⟨.init, none⟩
  down _ := []
  up _ := []
  sockets := 0

/-- A client asks for a session. -/
def request (c : Cluster) (now : Nat) (message : StartMessage) (timestamp : String) : Cluster :=
  { c with
    broker := (c.broker.startGameSession now message).1
    down := match (c.broker.startGameSession now message).2 with
      | some ws => Function.update c.down ws (c.down ws ++ [message.json timestamp])
      | none => c.down }

/-- The backend handles a message. -/
def handled (c : Cluster) (now : Nat) (ws : Socket) (json : Json) (rest : List Json) : Cluster :=
  { c with
    broker := c.broker.handleMessage now ws json
    up := Function.update c.up ws rest }

/-- The connection of a daemon that has ended is closed. -/
def nodeOf (d : Daemon) (ws : Socket) : Node := ⟨d, if d.status = .running then some ws else none⟩

/-- A daemon has gone on and sends messages. -/
def did (c : Cluster) (n : Nat) (ws : Socket) (d : Daemon) (messages : List Json) : Cluster :=
  { c with
    node := Function.update c.node n (nodeOf d ws)
    up := Function.update c.up ws (c.up ws ++ messages) }

/-- `allowed` says which messages are handled. -/
inductive Step (oneshot : Bool) (allowed : Cluster → Socket → Json → Prop) :
    Cluster → Cluster → Prop where
  | request {c : Cluster} (now : Nat) (message : StartMessage) (timestamp : String) :
      c.broker.Enabled (.start now message) →
      Step oneshot allowed c (c.request now message timestamp)
  | handle {c : Cluster} (now : Nat) (ws : Socket) {json : Json} {rest : List Json} :
      c.up ws = json :: rest → allowed c ws json →
      Step oneshot allowed c (c.handled now ws json rest)
  | timer {c : Cluster} {i : Nat} : c.broker.Enabled (.timer i) →
      Step oneshot allowed c { c with broker := c.broker.timeout i }
  | close {c : Cluster} {ws : Socket} : (∀ n, (c.node n).socket ≠ some ws) →
      Step oneshot allowed c { c with broker := c.broker.deleteNode ws }
  | connect {c : Cluster} (n : Nat) : (c.node n).daemon.status = .running →
      Step oneshot allowed c
        { c with
          node := Function.update c.node n ⟨(c.node n).daemon, some c.sockets⟩
          sockets := c.sockets + 1 }
  | heartbeat {c : Cluster} (n : Nat) {ws : Socket} {json : Json} :
      (c.node n).socket = some ws →
      Encodes (sidecarHeartbeat (c.node n).daemon.activeSession) json →
      Step oneshot allowed c (c.did n ws (c.node n).daemon [json])
  | receive {c : Cluster} (n : Nat) (started : Bool) {ws : Socket} {json : Json}
      {rest messages : List Json} : (c.node n).socket = some ws → c.down ws = json :: rest →
      List.Forall₂ Encodes ((c.node n).daemon.receive json started).2 messages →
      Step oneshot allowed c
        { c.did n ws ((c.node n).daemon.receive json started).1 messages with
          down := Function.update c.down ws rest }
  | ended {c : Cluster} (n : Nat) {ws : Socket} {session : Session} (crashed : Bool)
      {messages : List Json} : (c.node n).socket = some ws →
      (c.node n).daemon.activeSession = some session →
      List.Forall₂ Encodes ((c.node n).daemon.sessionOver oneshot session crashed).2 messages →
      Step oneshot allowed c
        (c.did n ws ((c.node n).daemon.sessionOver oneshot session crashed).1 messages)
  | exit {c : Cluster} (n : Nat) :
      Step oneshot allowed c
        { c with node := Function.update c.node n ⟨⟨.exited, none⟩, none⟩ }

def system (oneshot : Bool) (allowed : Cluster → Socket → Json → Prop) : System Cluster where
  init c := ∃ now, c = init now
  step := Step oneshot allowed

/-- The node has not yet taken a start that was sent to it, or its session is active. -/
def Busy (c : Cluster) (n : Nat) : Prop :=
  (c.node n).daemon.activeSession.isSome ∨ ∃ ws, (c.node n).socket = some ws ∧ c.down ws ≠ []

/-- A start is only sent to a node that is not busy. -/
def SendsToFree (c : Cluster) : Prop :=
  ∀ now message ws n, (c.broker.startGameSession now message).2 = some ws →
    (c.node n).socket = some ws → ¬ c.Busy n

/-- No heartbeat without a session is handled for a node that is busy. -/
def NoCrossing (c : Cluster) (ws : Socket) (json : Json) : Prop :=
  ∀ payload, json.field "type" = some (.str "heartbeat") →
    (json.field "payload").bind Broker.validPayload = some payload → payload.sessions = [] →
    ∀ n, (c.node n).socket = some ws → ¬ c.Busy n

theorem busy_iff {c : Cluster} {n : Nat} {ws : Socket} (hsocket : (c.node n).socket = some ws) :
    c.Busy n ↔ (c.node n).daemon.activeSession.isSome ∨ c.down ws ≠ [] := by
  refine or_congr_right ⟨?_, fun hdown => ⟨ws, hsocket, hdown⟩⟩
  rintro ⟨ws', hsocket', hdown⟩
  rw [hsocket] at hsocket'
  obtain rfl := Option.some.inj hsocket'
  exact hdown

/-! ### The invariant -/

/-- Connections are the daemons' own, and a connection that has not been opened is unused. -/
structure Wired (c : Cluster) : Prop where
  own : ∀ {n m ws}, (c.node n).socket = some ws → (c.node m).socket = some ws → n = m
  opened : ∀ {n ws}, (c.node n).socket = some ws → ws < c.sockets
  unused : ∀ {ws}, c.sockets ≤ ws → c.down ws = [] ∧ c.up ws = [] ∧ c.broker.nodes.get ws = none

/-- A daemon that is connected runs, and at most one start is on the way to it, while it has
no session. -/
structure Served (d : Daemon) (down : List Json) : Prop where
  running : d.status = .running
  one : down.length + d.activeSession.toList.length ≤ 1
  starts : ∀ json ∈ down, ∃ message timestamp, json = StartMessage.json message timestamp

structure Inv (c : Cluster) : Prop where
  wired : c.Wired
  served : ∀ {n ws}, (c.node n).socket = some ws → Served (c.node n).daemon (c.down ws)
  reserved : ∀ {n ws node}, (c.node n).socket = some ws → c.Busy n →
    c.broker.nodes.get ws = some node → node.nodePayload.sessions ≠ []
  aborted : ∀ n, (c.node n).daemon.status ≠ .aborted

/-- Only a node whose last heartbeat has no session gets a start. -/
theorem Inv.sendsToFree {c : Cluster} (h : c.Inv) : c.SendsToFree := by
  intro now message ws n hsent hsocket hbusy
  rcases c.broker.startGameSession_cases now message with heq | ⟨ws', node, hnode, hfree, heq⟩
  · rw [heq] at hsent
    cases hsent
  · rw [heq] at hsent
    obtain rfl := Option.some.inj hsent
    refine h.reserved hsocket hbusy hnode ?_
    simp only [Broker.free, Bool.and_eq_true, decide_eq_true_eq] at hfree
    exact List.length_eq_zero_iff.mp hfree.2

/-- The backend does something, but sends nothing. -/
theorem Inv.broker {c : Cluster} (h : c.Inv) {event : Broker.Event} {up : Socket → List Json}
    (hnodes : ∀ {ws node}, (c.broker.apply event).nodes.get ws = some node →
      c.broker.nodes.get ws = some node ∨ node.nodePayload.sessions ≠ [] ∨
        ∀ n, (c.node n).socket = some ws → ¬ c.Busy n)
    (hunused : ∀ {ws}, c.sockets ≤ ws → up ws = [] ∧ (c.broker.apply event).nodes.get ws = none) :
    Inv { c with broker := c.broker.apply event, up := up } where
  wired :=
    { own := h.wired.own
      opened := h.wired.opened
      unused := fun hws => ⟨(h.wired.unused hws).1, hunused hws⟩ }
  served := h.served
  reserved := by
    intro n ws node hsocket hbusy hget
    rcases hnodes hget with hold | hne | hfree
    · exact h.reserved hsocket hbusy hold
    · exact hne
    · exact absurd hbusy (hfree n hsocket)
  aborted := h.aborted

/-- The node that was found was known, and has a session in its last heartbeat now. -/
theorem found_reserved {b : Broker} {now : Nat} {message : StartMessage} {ws : Socket}
    (hsent : (b.startGameSession now message).2 = some ws) :
    b.nodes.get ws ≠ none ∧ ∀ {node}, (b.apply (.start now message)).nodes.get ws = some node →
      node.nodePayload.sessions ≠ [] := by
  rcases b.startGameSession_cases now message with heq | ⟨ws', node, hnode, _, heq⟩
  · rw [heq] at hsent
    cases hsent
  · rw [heq] at hsent
    obtain rfl := Option.some.inj hsent
    refine ⟨by rw [hnode]; exact nofun, ?_⟩
    intro node' hget
    change (b.startGameSession now message).1.nodes.get ws' = some node' at hget
    rw [heq] at hget
    change (OrderedMap.set _ ws' (Broker.reserve node message.sessionId)).get ws' = _ at hget
    rw [OrderedMap.get_set_self] at hget
    obtain rfl := Option.some.inj hget
    simp [Broker.reserve]

/-- A start adds no node, and changes one only by adding a session. -/
theorem nodes_start {b : Broker} {now : Nat} {message : StartMessage} {ws : Socket} {node : NodeInfo}
    (hget : (b.apply (.start now message)).nodes.get ws = some node) :
    b.nodes.get ws ≠ none ∧ (b.nodes.get ws = some node ∨ node.nodePayload.sessions ≠ []) := by
  rcases Broker.nodes_apply hget with hold | ⟨_, _, old, _, hold, _, rfl⟩ | ⟨_, _, heffect, _⟩
  · exact ⟨by rw [hold]; exact nofun, .inl hold⟩
  · exact ⟨by rw [hold]; exact nofun, .inr (by simp [Broker.reserve])⟩
  · cases heffect

/-- A start is sent to a node that is not busy. -/
theorem Inv.send {c : Cluster} (h : c.Inv) {now : Nat} {message : StartMessage} {ws : Socket}
    (timestamp : String) (hsent : (c.broker.startGameSession now message).2 = some ws)
    (hunused : ∀ {ws}, c.sockets ≤ ws →
      (c.broker.apply (.start now message)).nodes.get ws = none) :
    Inv
      { c with
        broker := c.broker.apply (.start now message)
        down := Function.update c.down ws (c.down ws ++ [message.json timestamp]) } := by
  obtain ⟨hknown, hreserved⟩ := found_reserved hsent
  have hlt : ws < c.sockets := by
    by_contra hle
    exact hknown (h.wired.unused (Nat.le_of_not_lt hle)).2.2
  constructor
  · refine ⟨h.wired.own, h.wired.opened, fun {w} hw => ⟨?_, (h.wired.unused hw).2.1, hunused hw⟩⟩
    have hne : w ≠ ws := by
      rintro rfl
      exact absurd hlt (Nat.not_lt.mpr hw)
    exact (Function.update_of_ne hne ..).trans (h.wired.unused hw).1
  · intro n w (hsocket : (c.node n).socket = some w)
    have hserved := h.served hsocket
    change Served (c.node n).daemon (Function.update c.down ws _ w)
    by_cases hw : w = ws
    · subst hw
      have hfree := h.sendsToFree now message w n hsent hsocket
      rw [busy_iff hsocket, not_or, not_not, Option.not_isSome_iff_eq_none] at hfree
      rw [Function.update_self, hfree.2]
      refine ⟨hserved.running, by rw [hfree.1]; exact Nat.le_refl 1, ?_⟩
      intro json hmem
      exact ⟨message, timestamp, List.mem_singleton.mp hmem⟩
    · rw [Function.update_of_ne hw]
      exact hserved
  · intro n w node hsocket hbusy hget
    by_cases hw : w = ws
    · subst hw
      exact hreserved hget
    · rcases (nodes_start hget).2 with hold | hne
      · rw [busy_iff hsocket] at hbusy
        change _ ∨ Function.update c.down ws _ w ≠ [] at hbusy
        rw [Function.update_of_ne hw] at hbusy
        have hsocket : (c.node n).socket = some w := hsocket
        exact h.reserved hsocket ((busy_iff hsocket).mpr hbusy) hold
      · exact hne
  · exact h.aborted

/-- A client asks for a session. -/
theorem Inv.request {c : Cluster} (h : c.Inv) (now : Nat) (message : StartMessage)
    (timestamp : String) : (c.request now message timestamp).Inv := by
  have hunused : ∀ {ws}, c.sockets ≤ ws →
      (c.broker.apply (.start now message)).nodes.get ws = none := by
    intro ws hws
    cases hget : (c.broker.apply (.start now message)).nodes.get ws with
    | none => rfl
    | some node => exact absurd (h.wired.unused hws).2.2 (nodes_start hget).1
  unfold Cluster.request
  cases hsent : (c.broker.startGameSession now message).2 with
  | none =>
      exact h.broker (fun hget => (nodes_start hget).2.imp_right .inl)
        fun hws => ⟨(h.wired.unused hws).2.1, hunused hws⟩
  | some ws => exact h.send timestamp hsent hunused

/-- A daemon goes on, and may have taken what was on the way to it. -/
theorem Inv.did {c : Cluster} (h : c.Inv) {n : Nat} {ws : Socket}
    (hsocket : (c.node n).socket = some ws) {d : Daemon} {down : List Json} (messages : List Json)
    (hserved : d.status = .running → Served d down) (haborted : d.status ≠ .aborted)
    (hbusy : d.activeSession.isSome ∨ down ≠ [] → c.Busy n) :
    Inv { c.did n ws d messages with down := Function.update c.down ws down } := by
  have hlt := h.wired.opened hsocket
  -- the daemon keeps its connection or loses it
  have hcases : ∀ {m w}, (Function.update c.node n (nodeOf d ws) m).socket = some w →
      (m = n ∧ w = ws ∧ d.status = .running) ∨ (m ≠ n ∧ w ≠ ws ∧ (c.node m).socket = some w) := by
    intro m w hm
    by_cases hmn : m = n
    · subst hmn
      rw [Function.update_self, nodeOf] at hm
      by_cases hstatus : d.status = .running
      · rw [if_pos hstatus] at hm
        exact .inl ⟨rfl, (Option.some.inj hm).symm, hstatus⟩
      · rw [if_neg hstatus] at hm
        cases hm
    · rw [Function.update_of_ne hmn] at hm
      refine .inr ⟨hmn, ?_, hm⟩
      rintro rfl
      exact hmn (h.wired.own hm hsocket)
  constructor
  · constructor
    · intro m m' w hm hm'
      rcases hcases hm with ⟨rfl, rfl, _⟩ | ⟨_, hne, hold⟩ <;>
        rcases hcases hm' with ⟨rfl, hw, _⟩ | ⟨_, hne', hold'⟩
      · rfl
      · exact absurd rfl hne'
      · exact absurd hw hne
      · exact h.wired.own hold hold'
    · intro m w hm
      rcases hcases hm with ⟨_, rfl, _⟩ | ⟨_, _, hold⟩
      · exact hlt
      · exact h.wired.opened hold
    · intro w hw
      have hne : w ≠ ws := by
        rintro rfl
        exact absurd hlt (Nat.not_lt.mpr hw)
      obtain ⟨hdown, hup, hnode⟩ := h.wired.unused hw
      refine ⟨?_, ?_, hnode⟩
      · exact (Function.update_of_ne hne ..).trans hdown
      · exact (Function.update_of_ne hne ..).trans hup
  · intro m w hm
    rcases hcases hm with ⟨rfl, rfl, hstatus⟩ | ⟨hmn, hne, hold⟩
    · change Served (Function.update c.node m _ m).daemon (Function.update c.down w down w)
      rw [Function.update_self, Function.update_self]
      exact hserved hstatus
    · change Served (Function.update c.node n _ m).daemon (Function.update c.down ws down w)
      rw [Function.update_of_ne hmn, Function.update_of_ne hne]
      exact h.served hold
  · intro m w node hm hb hget
    rw [busy_iff hm] at hb
    change (Function.update c.node n _ m).daemon.activeSession.isSome ∨
      Function.update c.down ws down w ≠ [] at hb
    rcases hcases hm with ⟨rfl, rfl, _⟩ | ⟨hmn, hne, hold⟩
    · rw [Function.update_self, Function.update_self] at hb
      exact h.reserved hsocket (hbusy hb) hget
    · rw [Function.update_of_ne hmn, Function.update_of_ne hne] at hb
      exact h.reserved hold ((busy_iff hold).mpr hb) hget
  · intro m
    change (Function.update c.node n _ m).daemon.status ≠ .aborted
    by_cases hmn : m = n
    · subst hmn
      rw [Function.update_self]
      exact haborted
    · rw [Function.update_of_ne hmn]
      exact h.aborted m

/-- A daemon is connected anew, or has ended. -/
theorem Inv.replace {c : Cluster} (h : c.Inv) (n : Nat) {node : Node} {sockets : Nat}
    (hle : c.sockets ≤ sockets) (haborted : node.daemon.status ≠ .aborted)
    (hsocket : ∀ {ws}, node.socket = some ws → c.sockets ≤ ws ∧ ws < sockets ∧ Served node.daemon []) :
    Inv { c with node := Function.update c.node n node, sockets := sockets } := by
  have hcases : ∀ {m ws}, (Function.update c.node n node m).socket = some ws →
      (m = n ∧ node.socket = some ws) ∨ (m ≠ n ∧ (c.node m).socket = some ws) := by
    intro m ws hm
    by_cases hmn : m = n
    · subst hmn
      rw [Function.update_self] at hm
      exact .inl ⟨rfl, hm⟩
    · rw [Function.update_of_ne hmn] at hm
      exact .inr ⟨hmn, hm⟩
  constructor
  · constructor
    · intro m m' ws hm hm'
      rcases hcases hm with ⟨rfl, hnew⟩ | ⟨_, hold⟩ <;> rcases hcases hm' with ⟨rfl, hnew'⟩ | ⟨_, hold'⟩
      · rfl
      · exact absurd (h.wired.opened hold') (Nat.not_lt.mpr (hsocket hnew).1)
      · exact absurd (h.wired.opened hold) (Nat.not_lt.mpr (hsocket hnew').1)
      · exact h.wired.own hold hold'
    · intro m ws hm
      rcases hcases hm with ⟨_, hnew⟩ | ⟨_, hold⟩
      · exact (hsocket hnew).2.1
      · exact Nat.lt_of_lt_of_le (h.wired.opened hold) hle
    · exact fun hws => h.wired.unused (Nat.le_trans hle hws)
  · intro m ws hm
    change Served (Function.update c.node n node m).daemon (c.down ws)
    rcases hcases hm with ⟨rfl, hnew⟩ | ⟨hmn, hold⟩
    · obtain ⟨hfresh, _, hserved⟩ := hsocket hnew
      rw [Function.update_self, (h.wired.unused hfresh).1]
      exact hserved
    · rw [Function.update_of_ne hmn]
      exact h.served hold
  · intro m ws info hm hbusy hget
    rcases hcases hm with ⟨rfl, hnew⟩ | ⟨hmn, hold⟩
    · have hnone := (h.wired.unused (hsocket hnew).1).2.2
      change c.broker.nodes.get ws = some info at hget
      rw [hnone] at hget
      cases hget
    · rw [busy_iff hm] at hbusy
      change (Function.update c.node n node m).daemon.activeSession.isSome ∨ _ at hbusy
      rw [Function.update_of_ne hmn] at hbusy
      exact h.reserved hold ((busy_iff hold).mpr hbusy) hget
  · intro m
    change (Function.update c.node n node m).daemon.status ≠ .aborted
    by_cases hmn : m = n
    · subst hmn
      rw [Function.update_self]
      exact haborted
    · rw [Function.update_of_ne hmn]
      exact h.aborted m

/-- A daemon takes a start. -/
theorem Served.receive {d : Daemon} {json : Json} {rest : List Json} (h : Served d (json :: rest))
    (started : Bool) : (d.receive json started).1.status ≠ .aborted ∧
      ((d.receive json started).1.status = .running → Served (d.receive json started).1 rest) := by
  obtain ⟨message, timestamp, hjson⟩ := h.starts json List.mem_cons_self
  have hone := h.one
  rw [List.length_cons] at hone
  have hnone : d.activeSession = none := by
    cases hactive : d.activeSession with
    | none => rfl
    | some session =>
        rw [hactive, Option.toList_some, List.length_singleton] at hone
        omega
  have hrest : rest = [] := List.length_eq_zero_iff.mp (by omega)
  have hcall : apiRecv json = none ∨ ∃ data, apiRecv json = some (.start data) := by
    rw [hjson, apiRecv_json]
    cases valueString (some message.request.gameId) with
    | none => exact .inl rfl
    | some gameId =>
        cases valueInt (some message.request.width) with
        | none => exact .inl rfl
        | some width =>
            cases valueInt (some message.request.height) with
            | none => exact .inl rfl
            | some height => exact .inr ⟨_, rfl⟩
  rcases hcall with hcall | ⟨data, hcall⟩
  · rw [Daemon.receive, hcall]
    exact ⟨nofun, nofun⟩
  · have hreceive : d.receive json started =
        Daemon.after d.activeSession (d.handle started (.start data)) := by
      rw [Daemon.receive, hcall]
    rw [hreceive, Daemon.handle, sidecarOnStartSession, hnone, hrest]
    cases started with
    | true => exact ⟨nofun, fun _ => ⟨rfl, Nat.le_refl 1, nofun⟩⟩
    | false => exact ⟨nofun, nofun⟩

/-- The backend does something other than sending a start. -/
theorem Inv.event {c : Cluster} (h : c.Inv) (event : Broker.Event) {up : Socket → List Json}
    (hstart : ∀ now message, event ≠ .start now message)
    (hmessage : ∀ now ws json, event = .message now ws json → ws < c.sockets ∧ c.NoCrossing ws json)
    (hup : ∀ {ws}, c.sockets ≤ ws → up ws = []) :
    Inv { c with broker := c.broker.apply event, up := up } := by
  have hnodes : ∀ {ws node}, (c.broker.apply event).nodes.get ws = some node →
      c.broker.nodes.get ws = some node ∨ (ws < c.sockets ∧ (node.nodePayload.sessions ≠ [] ∨
        ∀ n, (c.node n).socket = some ws → ¬ c.Busy n)) := by
    intro ws node hget
    rcases Broker.nodes_apply hget with hold | ⟨now, message, _, heffect, _⟩ |
      ⟨now, payload, heffect, rfl⟩
    · exact .inl hold
    · exact absurd (Broker.effect_start heffect) (hstart now message)
    · obtain ⟨json, hevent, htype, hpayload⟩ := Broker.effect_heartbeat heffect
      obtain ⟨hlt, hcrossing⟩ := hmessage now ws json hevent
      refine .inr ⟨hlt, ?_⟩
      by_cases hnil : payload.sessions = []
      · exact .inr (hcrossing payload htype hpayload hnil)
      · exact .inl hnil
  refine h.broker (fun hget => (hnodes hget).imp_right And.right) fun {ws} hws => ⟨hup hws, ?_⟩
  cases hget : (c.broker.apply event).nodes.get ws with
  | none => rfl
  | some node =>
      rcases hnodes hget with hold | ⟨hlt, _⟩
      · rw [(h.wired.unused hws).2.2] at hold
        cases hold
      · exact absurd hlt (Nat.not_lt.mpr hws)

theorem Inv.step {oneshot : Bool} {c c' : Cluster} (h : c.Inv) (hstep : Step oneshot NoCrossing c c') :
    c'.Inv := by
  cases hstep with
  | request now message timestamp _ => exact h.request now message timestamp
  | @handle now ws json rest hup hallowed =>
      have hlt : ws < c.sockets := by
        by_contra hle
        have hnil := (h.wired.unused (Nat.le_of_not_lt hle)).2.1
        rw [hup] at hnil
        cases hnil
      refine h.event (.message now ws json) nofun ?_ fun {w} hw => ?_
      · rintro _ _ _ ⟨⟩
        exact ⟨hlt, hallowed⟩
      · have hne : w ≠ ws := by
          rintro rfl
          exact absurd hlt (Nat.not_lt.mpr hw)
        rw [Function.update_of_ne hne]
        exact (h.wired.unused hw).2.1
  | @timer i _ => exact h.event (.timer i) nofun nofun fun hw => (h.wired.unused hw).2.1
  | @close ws _ => exact h.event (.close ws) nofun nofun fun hw => (h.wired.unused hw).2.1
  | connect n hstatus =>
      refine h.replace n (Nat.le_succ _) (h.aborted n) ?_
      rintro ws ⟨⟩
      refine ⟨Nat.le_refl _, Nat.lt_succ_self _, hstatus, ?_, nofun⟩
      cases (c.node n).daemon.activeSession <;> simp
  | @heartbeat n ws json hsocket _ =>
      have hinv := h.did hsocket [json] (fun _ => h.served hsocket) (h.aborted n)
        (busy_iff hsocket).mpr
      rw [Function.update_eq_self] at hinv
      exact hinv
  | @receive n started ws json rest messages hsocket hdown _ =>
      have hserved := h.served hsocket
      rw [hdown] at hserved
      obtain ⟨haborted, hrunning⟩ := hserved.receive started
      refine h.did hsocket messages hrunning haborted fun _ => (busy_iff hsocket).mpr (.inr ?_)
      rw [hdown]
      exact nofun
  | @ended n ws session crashed messages hsocket hactive _ =>
      rw [Daemon.sessionOver_eq oneshot crashed hactive]
      have hserved := h.served hsocket
      have hinv := h.did hsocket (d := ⟨if oneshot then .exited else .running, none⟩) messages
        (fun hstatus => ⟨hstatus, Nat.le_trans (Nat.le_add_right _ _) hserved.one, hserved.starts⟩)
        (by cases oneshot <;> exact nofun)
        fun _ => (busy_iff hsocket).mpr (.inl (by rw [hactive]; rfl))
      rw [Function.update_eq_self] at hinv
      exact hinv
  | exit n => exact h.replace n (Nat.le_refl _) nofun nofun

/-- In every run in which no heartbeat without a session is handled for a node that is busy,
no start is sent to a node that is busy, and no daemon aborts. -/
theorem one_session_of_noCrossing (oneshot : Bool) (c : Cluster)
    (hc : (system oneshot NoCrossing).Reachable c) :
    c.SendsToFree ∧ ∀ n, (c.node n).daemon.status ≠ .aborted := by
  have hinv : c.Inv := by
    refine hc.invariant Inv ?_ fun _ _ => Inv.step
    rintro _ ⟨now, rfl⟩
    exact ⟨⟨nofun, nofun, fun _ => ⟨rfl, rfl, rfl⟩⟩, nofun, nofun, fun _ => nofun⟩
  exact ⟨hinv.sendsToFree, hinv.aborted⟩

/-- A heartbeat of a node that has the game and no session. -/
def idle : Json :=
  envelope "heartbeat" "" "" [("hostname", .str "a"), ("ip", .str "10.0.0.1"),
    ("games", .arr [.str "game"]), ("sessions", .arr [])]

theorem encodes_idle : Encodes (sidecarHeartbeat none) idle :=
  .heartbeat "" "" "a" "10.0.0.1" ["game"] [] []

/-- A heartbeat with the session that is active. -/
def busy (session : List UInt8) : Json :=
  envelope "heartbeat" "" "" [("hostname", .str "a"), ("ip", .str "10.0.0.1"),
    ("games", .arr [.str "game"]), ("sessions", .arr [idText session])]

theorem encodes_busy (session : Session) :
    Encodes (sidecarHeartbeat (some session)) (busy (cString session.id)) :=
  .heartbeat "" "" "a" "10.0.0.1" ["game"] [] [cString session.id]

theorem noCrossing_busy (c : Cluster) (ws : Socket) (session : List UInt8) :
    NoCrossing c ws (busy session) := by
  intro payload _ hpayload hnone
  obtain rfl := Option.some.inj hpayload
  cases hnone

theorem noCrossing_startConfirmed (c : Cluster) (ws : Socket) (payload : List (String × Json)) :
    NoCrossing c ws (envelope "start_confirmed" "" "" payload) := by
  intro _ htype
  have hname : "start_confirmed" = "heartbeat" := Json.str.inj (Option.some.inj htype)
  exact absurd hname (by decide)

/-- The node confirms its session and sends a heartbeat with it; a second client asks for one. -/
theorem one_session_started : ∃ c : Cluster, c.SendsToFree ∧
    (c.node 0).daemon.activeSession.isSome ∧ c.down 0 = [] ∧
    (c.broker.nodes.get 0).map (fun node => node.nodePayload.sessions.length) = some 1 ∧
    (c.node 0).daemon.status ≠ .aborted := by
  have h : (system false NoCrossing).Reachable (init 0) := .start ⟨0, rfl⟩
  replace h := h.next (.connect 0 rfl)
  replace h := h.next (.heartbeat 0 rfl encodes_idle)
  -- the node is not busy yet
  replace h := h.next (.handle 0 0 rfl fun _ _ _ _ n hsocket hbusy => by
    rw [busy_iff hsocket] at hbusy
    cases n with
    | zero => exact hbusy.elim nofun fun hdown => hdown rfl
    | succ n => exact hbusy.elim nofun fun hdown => hdown rfl)
  replace h := h.next (.request 1 (gameStart "r1" "s1" "alice") "" ⟨by decide, by decide, nofun⟩)
  replace h := h.next (.receive 0 true rfl rfl (.cons (.startConfirmed "" "" "" _) .nil))
  replace h := h.next (.handle 2 0 rfl (noCrossing_startConfirmed _ 0 _))
  replace h := h.next (.heartbeat 0 rfl (encodes_busy _))
  replace h := h.next (.handle 3 0 rfl (noCrossing_busy _ 0 _))
  replace h := h.next (.request 4 (gameStart "r2" "s2" "bob") "" ⟨by decide, by decide, fun start hmem => by
    rw [List.mem_singleton.mp hmem]
    exact ⟨by decide, by decide⟩⟩)
  obtain ⟨hsends, hstatus⟩ := one_session_of_noCrossing false _ h
  exact ⟨_, hsends, rfl, rfl, rfl, hstatus 0⟩

/-- A heartbeat that is on the way when a start is sent. -/
theorem heartbeat_crosses_start : ¬ ∀ oneshot (c : Cluster),
    (system oneshot fun _ _ _ => True).Reachable c → c.SendsToFree := by
  intro hall
  have h : (system false fun _ _ _ => True).Reachable (init 0) := .start ⟨0, rfl⟩
  replace h := h.next (.connect 0 rfl)
  replace h := h.next (.heartbeat 0 rfl encodes_idle)
  replace h := h.next (.handle 0 0 rfl trivial)
  replace h := h.next (.heartbeat 0 rfl encodes_idle)
  replace h := h.next (.request 1 (gameStart "r1" "s1" "alice") "" ⟨by decide, by decide, nofun⟩)
  replace h := h.next (.handle 2 0 rfl trivial)
  exact hall _ _ h 3 (gameStart "r2" "s2" "bob") 0 0 rfl rfl (.inr ⟨0, rfl, nofun⟩)

end Cluster

end Stratus.SideCar
