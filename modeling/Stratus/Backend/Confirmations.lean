import Stratus.Backend.NodeSessions
import Stratus.Backend.PendingStarts

/-! The answers of `ControllerCreateSession`: which confirmation they are made from, and
whether the session is still known then. -/
namespace Stratus.Backend

open Stratus.Lib

inductive Answer where
  /-- 503 -/
  | unavailable
  /-- 201 -/
  | created (sessionId tlsFingerprint : Json) (ip : Option Json)

namespace Broker

/-- A promise has the value that it is first resolved with. -/
def answer (start : Start) : Option Answer :=
  start.results.head?.map fun
    | none => .unavailable
    | some confirm => .created confirm.sessionId confirm.tlsFingerprint confirm.ip

/-- An address in a heartbeat that has come on a socket. -/
def Reported (trace : List Event) (ws : Socket) (ip : String) : Prop :=
  ∃ now message payload, Event.message now ws message ∈ trace ∧
    message.field "type" = some (.str "heartbeat") ∧
    (message.field "payload").bind validPayload = some payload ∧ payload.ip = ip

/-- The answer is that of the node which the start has been sent to: its session, the
fingerprint in a confirmation that has come on that socket, and an address reported there. -/
def Genuine (trace : List Event) (start : Start) (sessionId tlsFingerprint : Json)
    (ip : Option Json) : Prop :=
  sessionId = .str start.message.sessionId ∧
  ∃ before now message after, trace = before ++ .message now start.socket message :: after ∧
    message.field "type" = some (.str "start_confirmed") ∧
    (message.field "payload").bind (Json.field "tls_fingerprint") = some tlsFingerprint ∧
    ∃ address, ip = some (.str address) ∧ Reported before start.socket address

def RightNode (trace : List Event) (b : Broker) : Prop :=
  ∀ start ∈ b.starts, ∀ sessionId tlsFingerprint ip,
    answer start = some (.created sessionId tlsFingerprint ip) →
    Genuine trace start sessionId tlsFingerprint ip

/-- A confirmation that is taken for a start comes on the socket of that start, whose node
is known, and is for its session. -/
def FromNode (b : Broker) (event : Event) : Prop :=
  ∀ ws confirm requestId i start, b.effect event = .confirm ws confirm →
    b.matching confirm = some requestId → b.pendingStarts.get requestId = some i →
    b.starts[i]? = some start →
    confirm.sessionId = .str start.message.sessionId ∧ ws = start.socket ∧ b.nodes.has ws = true

theorem confirmOf_eq_some {b : Broker} {ws : Socket} {message : Json} {confirm : ConfirmStart}
    (h : b.confirmOf ws message = some confirm) :
    (message.field "payload").bind (Json.field "tls_fingerprint") = some confirm.tlsFingerprint ∧
    ∀ node, b.nodes.get ws = some node → confirm.ip = some (.str node.nodePayload.ip) := by
  unfold confirmOf at h
  split at h
  · cases h
  · next payload hpayload =>
    split at h
    · next sessionId tlsFingerprint _ htls =>
      split at h
      · cases h
        refine ⟨by simp [hpayload, htls], fun node hnode => ?_⟩
        simp [hnode]
      · cases h
    · cases h

theorem Reported.snoc {trace : List Event} {ws : Socket} {ip : String} (h : Reported trace ws ip)
    (event : Event) : Reported (trace ++ [event]) ws ip := by
  obtain ⟨now, message, payload, hmem, hrest⟩ := h
  exact ⟨now, message, payload, List.mem_append_left _ hmem, hrest⟩

theorem Genuine.snoc {trace : List Event} {start : Start} {sessionId tlsFingerprint : Json}
    {ip : Option Json} (h : Genuine trace start sessionId tlsFingerprint ip) (event : Event) :
    Genuine (trace ++ [event]) start sessionId tlsFingerprint ip := by
  obtain ⟨hs, before, now, message, after, rfl, hrest⟩ := h
  exact ⟨hs, before, now, message, after ++ [event], by simp, hrest⟩

/-- The addresses of the nodes are those that they have reported. -/
theorem reported_apply {b : Broker} {trace : List Event} {event : Event}
    (hreported : ∀ ws node, b.nodes.get ws = some node → Reported trace ws node.nodePayload.ip)
    (ws : Socket) (node : NodeInfo) (hget : (b.apply event).nodes.get ws = some node) :
    Reported (trace ++ [event]) ws node.nodePayload.ip := by
  rcases nodes_apply hget with hold | ⟨_, _, node, _, hold, _, rfl⟩ | ⟨now, payload, heffect, rfl⟩
  · exact (hreported ws node hold).snoc event
  · exact (hreported ws node hold).snoc event
  · obtain ⟨message, rfl, htype, hpayload⟩ := effect_heartbeat heffect
    exact ⟨now, message, payload, List.mem_append_right _ List.mem_cons_self, htype, hpayload, rfl⟩

theorem rightNode_apply {b : Broker} (h : Sound b) {trace : List Event} {event : Event}
    (hreported : ∀ ws node, b.nodes.get ws = some node → Reported trace ws node.nodePayload.ip)
    (hright : RightNode trace b) (hnode : b.FromNode event) :
    RightNode (trace ++ [event]) (b.apply event) := by
  intro start' hmem sessionId tlsFingerprint ip hanswer
  obtain ⟨i, hi⟩ := List.getElem?_of_mem hmem
  rcases starts_apply h hi with ⟨start, hold, hsame, ⟨hresults, _⟩ | hresults⟩ |
    ⟨ws, confirm, start, heffect, hold, hsame, hopen, hmatch, hresults⟩ |
    ⟨_, _, _, _, _, _, _, rfl, _⟩
  · rw [answer, hresults] at hanswer
    have hgenuine := hright start (List.mem_of_getElem? hold) sessionId tlsFingerprint ip hanswer
    unfold Genuine
    rw [hsame.socket, hsame.message]
    exact hgenuine.snoc event
  · rw [answer, hresults] at hanswer
    cases hanswer
  · rw [answer, hresults] at hanswer
    cases hanswer
    obtain ⟨hsession, rfl, hhas⟩ := hnode ws confirm _ i start heffect hmatch
      (h.pending.mpr ⟨start, hold, rfl, hopen⟩) hold
    obtain ⟨now, message, rfl, htype, hconfirm⟩ := effect_confirm heffect
    obtain ⟨htls, hip⟩ := confirmOf_eq_some hconfirm
    obtain ⟨node, hget⟩ := Option.isSome_iff_exists.mp hhas
    unfold Genuine
    rw [hsame.socket, hsame.message]
    exact ⟨hsession, trace, now, message, [], rfl, htype, htls, node.nodePayload.ip, hip node hget,
      hreported _ node hget⟩
  · cases hanswer

/-- Where every confirmation that is taken for a start is from the node of that start, the
client is answered with its own session on that node. -/
theorem rightNode_of_fromNode {trace : List Event} {b : Broker}
    (hrun : (system FromNode).Run trace b) : RightNode trace b := by
  refine (hrun.invariant (fun trace b => Sound b ∧
    (∀ ws node, b.nodes.get ws = some node → Reported trace ws node.nodePayload.ip) ∧
    RightNode trace b) ?_ ?_).2.2
  · rintro _ ⟨now, rfl⟩
    exact ⟨.start now, by simp [init], by simp [RightNode, init]⟩
  · rintro trace b event _ ⟨h, hreported, hright⟩ ⟨henabled, hnode, rfl⟩
    exact ⟨h.apply henabled, reported_apply hreported, rightNode_apply h hreported hright hnode⟩

theorem rightNode_confirmed :
    RightNode (twoStarts ++ [.message 2 1 (confirmMessage "" "s1" "f1")])
      (List.foldl apply (init 0) (twoStarts ++ [.message 2 1 (confirmMessage "" "s1" "f1")])) := by
  refine rightNode_of_fromNode (run_init ?_)
  refine ⟨trivial, nofun, trivial, nofun, by decide, nofun, by decide, nofun, trivial, ?_, trivial⟩
  rintro ws confirm requestId i start ⟨⟩ ⟨⟩ ⟨⟩ ⟨⟩
  exact ⟨rfl, rfl, by decide⟩

/-- The node of one start confirms the session of the other. -/
def strangeConfirmation : List Event :=
  twoStarts ++ [.message 2 2 (confirmMessage "" "s1" "f2")]

theorem strange_confirmation : ¬ ∀ trace b, (system Any).Run trace b → RightNode trace b := by
  intro hall
  have hrun : (system Any).Run strangeConfirmation (strangeConfirmation.foldl apply (init 0)) :=
    run_init (by decide)
  have hanswer : ∃ start : Start, (strangeConfirmation.foldl apply (init 0)).starts[0]? = some start ∧
      start.socket = 1 ∧
      answer start = some (.created (.str "s1") (.str "f2") (some (.str "10.0.0.2"))) :=
    ⟨_, rfl, rfl, rfl⟩
  obtain ⟨start, hget, hsocket, hcreated⟩ := hanswer
  obtain ⟨_, before, now, message, after, htrace, htype, _⟩ :=
    hall _ _ hrun start (List.mem_of_getElem? hget) _ _ _ hcreated
  rw [hsocket] at htrace
  have hmem : Event.message now 1 message ∈ strangeConfirmation := by simp [htrace]
  simp only [strangeConfirmation, twoStarts, startsOn, List.cons_append, List.nil_append, List.mem_cons,
    Event.message.injEq, List.not_mem_nil, reduceCtorEq, or_false, false_or] at hmem
  rcases hmem with ⟨_, _, rfl⟩ | ⟨_, hws, _⟩ | ⟨_, hws, _⟩
  · have hne : some (Json.str "heartbeat") = some (Json.str "start_confirmed") := htype
    simp at hne
  · cases hws
  · cases hws

/-! ### A confirmed session is known -/

/-- The session is ended by the node, or the connection to the node is. -/
def Ends (start : Start) : Event → Prop
  | .message _ ws message =>
      ((message.field "type" = some (.str "stop_session") ∨
        message.field "type" = some (.str "session_error")) ∧
        sessionOf message = some start.message.sessionId) ∨
      (message.field "type" = some (.str "node_disconnect") ∧ ws = start.socket)
  | .close ws => ws = start.socket
  | .start .. | .timer _ => False

/-- It has ended since it was started. -/
def Ended (trace : List Event) (start : Start) : Prop :=
  ∃ before now after, trace = before ++ .start now start.message :: after ∧
    ∃ event ∈ after, Ends start event

/-- When a confirmation for a session settles a promise, the session is recorded for the
user who has asked for it, unless it has ended. -/
def RecordedWhenConfirmed (trace : List Event) (b : Broker) (event : Event) : Prop :=
  ∀ ws confirm sessionId i start, b.effect event = .confirm ws confirm →
    confirm.sessionId = .str sessionId →
    b.starts[i]? = some start → b.pendingStarts.get start.message.requestId = some i →
    b.matching confirm = some start.message.requestId →
    (∃ s, (b.apply event).sessions.get sessionId = some s ∧
      s.userId = start.message.request.userId) ∨
    ∃ started ∈ b.starts, started.message.sessionId = sessionId ∧ Ended trace started

/-- A node confirms only sessions that it has been asked to start. -/
def Honest (b : Broker) (event : Event) : Prop :=
  ∀ ws confirm, b.effect event = .confirm ws confirm →
    ∃ start ∈ b.starts, start.socket = ws ∧ confirm.sessionId = .str start.message.sessionId

/-- The session of a start that is waited for is removed by the name of a node only when
the connection to its own node ends, and confirmations do not mix two starts. -/
def SparesPending (b : Broker) (event : Event) : Prop :=
  b.InStep event ∧
  ∀ start ∈ b.starts, start.results = [] → b.effect event ≠ .disconnect start.socket →
    b.Spares start.hostname start.message.sessionId (b.effect event)

theorem effect_over {b : Broker} {event : Event} {start : Start}
    (h : b.effect event = .ended start.message.sessionId) : Ends start event := by
  cases event with
  | message now ws message =>
      exact .inl (effect_message h)
  | start _ _ => cases h
  | close _ => cases h
  | timer _ => cases h

theorem effect_disconnect {b : Broker} {event : Event} {start : Start}
    (h : b.effect event = .disconnect start.socket) : Ends start event := by
  cases event with
  | message now ws message =>
      obtain ⟨hws, htype⟩ := effect_message h
      exact .inr ⟨htype, hws.symm⟩
  | close ws =>
      cases h
      exact rfl
  | start _ _ => cases h
  | timer _ => cases h

theorem Ends.same {start start' : Start} (hsame : Start.Same start start') {event : Event}
    (h : Ends start event) : Ends start' event := by
  cases event with
  | message now ws message =>
      simp only [Ends, hsame.message, hsame.socket]
      exact h
  | close ws =>
      simp only [Ends, hsame.socket]
      exact h
  | start _ _ => exact h
  | timer _ => exact h

theorem Ended.same {trace : List Event} {start start' : Start} (hsame : Start.Same start start')
    (h : Ended trace start) : Ended trace start' := by
  obtain ⟨before, now, after, htrace, event, hafter, hends⟩ := h
  exact ⟨before, now, after, hsame.message ▸ htrace, event, hafter, hends.same hsame⟩

/-- Every start has been asked for. -/
def Asked (trace : List Event) (b : Broker) : Prop :=
  ∀ start ∈ b.starts, ∃ before now after, trace = before ++ .start now start.message :: after

/-- The sessions of the starts that are waited for are recorded, unless they have ended. -/
def PendingRecorded (trace : List Event) (b : Broker) : Prop :=
  ∀ start ∈ b.starts, start.results = [] →
    (∃ s, b.sessions.get start.message.sessionId = some s ∧
      s.userId = start.message.request.userId) ∨ Ended trace start

theorem asked_apply {b : Broker} (h : Sound b) {trace : List Event} {event : Event}
    (hasked : Asked trace b) : Asked (trace ++ [event]) (b.apply event) := by
  intro start' hmem
  obtain ⟨i, hi⟩ := List.getElem?_of_mem hmem
  have hold : ∀ start ∈ b.starts, Start.Same start start' →
      ∃ before now after, trace ++ [event] = before ++ .start now start'.message :: after := by
    intro start hstart hsame
    obtain ⟨before, now, after, rfl⟩ := hasked start hstart
    exact ⟨before, now, after ++ [event], by simp [hsame.message]⟩
  rcases starts_apply h hi with ⟨start, hget, hsame, _⟩ | ⟨_, _, start, _, hget, hsame, _⟩ |
    ⟨now, message, _, _, heffect, _, _, rfl, _⟩
  · exact hold start (List.mem_of_getElem? hget) hsame
  · exact hold start (List.mem_of_getElem? hget) hsame
  · obtain rfl := effect_start heffect
    exact ⟨trace, now, [], rfl⟩

theorem pendingRecorded_apply {b : Broker} (h : Sound b) {trace : List Event} {event : Event}
    (henabled : b.Enabled event) (hspares : b.SparesPending event) (hasked : Asked trace b)
    (hrecorded : PendingRecorded trace b) :
    PendingRecorded (trace ++ [event]) (b.apply event) := by
  intro start' hmem hopen
  obtain ⟨i, hi⟩ := List.getElem?_of_mem hmem
  rcases starts_apply h hi with ⟨start, hget, hsame, ⟨hresults, htimer⟩ | hresults⟩ |
    ⟨_, _, start, _, hget, hsame, _, _, hresults⟩ |
    ⟨now, message, ws, node, heffect, _, _, rfl, hsession⟩
  · have hstart := List.mem_of_getElem? hget
    have hwaits : start.results = [] := hresults.symm.trans hopen
    rw [hsame.message]
    rcases hrecorded start hstart hwaits with ⟨s, hs, huser⟩ |
      ⟨before, now, after, rfl, ended, hafter, hends⟩
    · -- what can have removed it
      by_cases hends : Ends start event
      · obtain ⟨before, now, after, rfl⟩ := hasked start hstart
        exact .inr (Ended.same hsame
          ⟨before, now, after ++ [event], by simp, event, by simp, hends⟩)
      · refine .inl ⟨s, (sessions_apply h henabled hs).mpr ⟨?_, ?_, ?_⟩, huser⟩
        · rw [h.node hstart hs]
          exact hspares.2 start hstart hwaits fun heffect => hends (effect_disconnect heffect)
        · exact fun heffect => hends (effect_over heffect)
        · intro j other heffect hj _ hid
          obtain rfl := h.session hj hget hid
          exact htimer heffect hwaits
    · exact .inr (Ended.same hsame ⟨before, now, after ++ [event], by simp, ended,
        List.mem_append_left _ hafter, hends⟩)
  · rw [hresults] at hopen
    cases hopen
  · rw [hresults] at hopen
    cases hopen
  · exact .inl ⟨_, hsession, rfl⟩

/-- Where no session of a start that is waited for is removed by the name of a node, a
promise is settled only with a session that is known. -/
theorem recorded_of_sparesPending {trace : List Event} {b : Broker}
    (hrun : (system SparesPending).Run trace b) {event : Event}
    (hspares : b.SparesPending event) : RecordedWhenConfirmed trace b event := by
  have hinv := hrun.invariant (fun trace b => Sound b ∧ Asked trace b ∧ PendingRecorded trace b)
    (by
      rintro _ ⟨now, rfl⟩
      exact ⟨.start now, by simp [Asked, init], by simp [PendingRecorded, init]⟩)
    (by
      rintro trace b event _ ⟨h, hasked, hrecorded⟩ ⟨henabled, hspares, rfl⟩
      exact ⟨h.apply henabled, asked_apply h hasked,
        pendingRecorded_apply h henabled hspares hasked hrecorded⟩)
  obtain ⟨h, _, hrecorded⟩ := hinv
  intro ws confirm sessionId i start heffect hsession hget hpending hmatch
  obtain ⟨start', hget', _, hopen⟩ := h.pending.mp hpending
  obtain rfl : start' = start := Option.some.inj (hget'.symm.trans hget)
  have hown := session_of_matching h (fun requestId => hspares.1 ws confirm requestId heffect) hget
    hmatch
  obtain rfl : sessionId = start'.message.sessionId := Json.str.inj (hsession.symm.trans hown)
  have hsame : (b.apply event).sessions = b.sessions := by
    rw [apply_eq_perform, heffect]
    exact resolveStart_sessions h confirm
  rw [hsame]
  have hstart := List.mem_of_getElem? hget
  exact (hrecorded start' hstart hopen).imp_right fun hended => ⟨start', hstart, rfl, hended⟩

/-- The node confirms before its next heartbeat. -/
theorem recorded_oneStart :
    RecordedWhenConfirmed oneStart (oneStart.foldl apply (init 0))
      (.message 2 1 (confirmMessage "" "s1" "f1")) := by
  refine recorded_of_sparesPending (run_init ?_) ?_
  · exact ⟨trivial, ⟨nofun, nofun⟩, by decide, ⟨nofun, nofun⟩, trivial⟩
  · refine ⟨?_, fun _ _ _ _ => trivial⟩
    rintro ws confirm requestId ⟨⟩ ⟨⟩ hhas
    cases hhas

/-- A heartbeat that the node has sent before it got the start. -/
def crossingHeartbeat : List Event :=
  oneStart ++ [.message 2 1 (heartbeatMessage "a" "10.0.0.1" [])]

theorem crossing_heartbeat :
    ¬ ∀ trace b, (system Honest).Run trace b → ∀ event, b.Enabled event → b.Honest event →
      RecordedWhenConfirmed trace b event := by
  intro hall
  have hrun : (system Honest).Run crossingHeartbeat (crossingHeartbeat.foldl apply (init 0)) :=
    run_init ⟨trivial, nofun, by decide, nofun, trivial, nofun, trivial⟩
  have hhonest : (crossingHeartbeat.foldl apply (init 0)).Honest
      (.message 3 1 (confirmMessage "" "s1" "f1")) := by
    rintro ws confirm ⟨⟩
    exact ⟨_, List.mem_cons_self, rfl, rfl⟩
  rcases hall _ _ hrun (.message 3 1 (confirmMessage "" "s1" "f1")) trivial hhonest 1 _ "s1" 0 _
    rfl rfl rfl rfl rfl with
    ⟨s, hs, _⟩ | ⟨started, _, _, before, now, after, htrace, ended, hafter, hends⟩
  · cases hs
  · have hnone : ∀ event ∈ crossingHeartbeat, ¬ Ends started event := by
      intro event hevent
      simp only [crossingHeartbeat, oneStart, List.cons_append, List.nil_append, List.mem_cons,
        List.not_mem_nil, or_false] at hevent
      rcases hevent with rfl | rfl | rfl <;> simp [Ends, heartbeatMessage, Json.field]
    exact hnone ended (by simp [htrace, hafter]) hends

end Broker

end Stratus.Backend
