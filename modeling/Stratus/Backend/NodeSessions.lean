import Stratus.Backend.BrokerRuns

/-! Which sessions an event removes.  A session is recorded under a host name, a node is
known by its socket and keeps the host name of its first heartbeat, and two connections are
of the same node if host name and address are the same. -/
namespace Stratus.Backend

open Stratus.Lib

namespace Broker

/-- A session recorded under that name is not removed on behalf of a node of that name. -/
def Spares (b : Broker) (name sessionId : String) : Effect → Prop
  | .start now message =>
      ∀ ws ∈ passed b.nodes now message.request.gameId b.nodes.keys, ∀ node,
        b.nodes.get ws = some node → unresponsive now node = true → name ≠ node.name
  | .heartbeat now ws payload =>
      (∀ ws' node, b.nodes.get ws' = some node → b.removes now ws payload ws' node = true →
        name ≠ node.name) ∧
      (name = b.heartbeatName now ws payload →
        Json.includes payload.sessions (.str sessionId) = true)
  | .disconnect ws => ∀ node, b.nodes.get ws = some node → name ≠ node.name
  | .confirm .. | .ended _ | .timer _ | .nothing => True

theorem Sound.sessionId {b : Broker} (h : Sound b) {id : String} {s : Session}
    (hs : b.sessions.get id = some s) : s.sessionId = id := by
  obtain ⟨_, start, _, _, hid, rfl⟩ := h.recorded hs
  exact hid

theorem resolveStart_sessions {b : Broker} (h : Sound b) (confirm : ConfirmStart) :
    (b.resolveStart confirm).sessions = b.sessions := by
  rcases resolveStart_cases h confirm with ⟨heq, _⟩ | ⟨i, start, _, _, _, heq⟩
  · rw [heq]
  · rw [heq]
    exact (deletePendingSession_rest _ _).2.2.1

/-- A session that is there stays there unless it is removed by the name of a node, by
its id or by its timer. -/
theorem sessions_apply {b : Broker} (h : Sound b) {event : Event} (henabled : b.Enabled event)
    {id : String} {s : Session} (hs : b.sessions.get id = some s) :
    (b.apply event).sessions.get id = some s ↔
      b.Spares s.node id (b.effect event) ∧ b.effect event ≠ .ended id ∧
      ∀ (i : Nat) (start : Start), b.effect event = .timer i → b.starts[i]? = some start →
        start.results = [] → start.message.sessionId ≠ id := by
  rw [apply_eq_perform]
  cases heffect : b.effect event with
  | start now message =>
      obtain rfl := effect_start heffect
      have hsweep : (b.sweep now message.request.gameId).sessions.get id = some s ↔
          b.Spares s.node id (.start now message) := by
        rw [sweep, swept_sessions]
        simp [hs, Spares]
      have hfresh : id ≠ message.sessionId := by
        obtain ⟨_, start, _, hi, hid, _⟩ := h.recorded hs
        exact hid ▸ (henabled.2.2 start (List.mem_of_getElem? hi)).2
      change (b.startGameSession now message).1.sessions.get id = some s ↔ _
      rcases startGameSession_cases b now message with heq | ⟨ws, node, _, _, heq⟩
      · rw [heq]
        simp [hsweep]
      · rw [heq]
        change ((b.sweep now message.request.gameId).sessions.set _ _).get id = some s ↔ _
        rw [OrderedMap.get_set_ne _ _ hfresh]
        simp [hsweep]
  | heartbeat now ws payload =>
      change (b.updateHeartbeat now ws payload).sessions.get id = some s ↔ _
      rw [updateHeartbeat_sessions, h.sessionId hs]
      simp [hs, Spares]
  | confirm ws confirm =>
      change (b.resolveStart confirm).sessions.get id = some s ↔ _
      simp [resolveStart_sessions h, hs, Spares]
  | ended sessionId =>
      change (b.sessions.delete sessionId).get id = some s ↔ _
      rw [OrderedMap.get_delete_eq_some]
      simp [hs, Spares, eq_comm]
  | disconnect ws =>
      change (b.deleteNode ws).sessions.get id = some s ↔ _
      rw [deleteNode_sessions]
      simp [hs, Spares]
  | timer i =>
      change (b.timeout i).sessions.get id = some s ↔ _
      rcases timeout_cases h i with ⟨heq, hsettled⟩ | ⟨start, hi, hopen, heq⟩
      · rw [heq]
        simp only [hs, Spares, true_and, true_iff, ne_eq, reduceCtorEq, not_false_eq_true]
        rintro j start ⟨rfl⟩ hj hopen
        exact absurd hopen (hsettled start hj)
      · rw [heq]
        change (b.sessions.delete start.message.sessionId).get id = some s ↔ _
        rw [OrderedMap.get_delete_eq_some]
        simp only [hs, Spares, and_true, true_and, ne_eq, reduceCtorEq, not_false_eq_true,
          Effect.timer.injEq]
        constructor
        · rintro hne j start' rfl hj _ rfl
          obtain rfl : start = start' := Option.some.inj (hi.symm.trans hj)
          exact hne rfl
        · intro hall heq'
          exact hall i start rfl hi hopen heq'.symm
  | nothing => simp [perform, hs, Spares]

/-! ### Sessions of other nodes -/

/-- The identity of the node that a start has been sent to. -/
def startIdentity (start : Start) : String := start.hostname ++ ":" ++ start.ip

/-- The nodes that an event is about: those that send it or lose their connection, and
those that are removed because they have not been heard of. -/
def Concerns (b : Broker) : Effect → Socket → Prop
  | .heartbeat now ws _, w => w = ws ∨ (clearFrequency < now - b.lastClear ∧
      ∃ node, b.nodes.get w = some node ∧ unresponsive now node = true)
  | .disconnect ws, w => w = ws
  | .start now message, w => w ∈ passed b.nodes now message.request.gameId b.nodes.keys ∧
      ∃ node, b.nodes.get w = some node ∧ unresponsive now node = true
  | _, _ => False

/-- The identity of a node, before the event or by the heartbeat that it sends. -/
def HasIdentity (b : Broker) (effect : Effect) (w : Socket) (identity : String) : Prop :=
  (∃ node, b.nodes.get w = some node ∧ getNodeIdentity node.nodePayload = identity) ∨
  ∃ now payload, effect = .heartbeat now w payload ∧ getNodeIdentity payload = identity

/-- The start has been sent on other sockets and to nodes with other identities. -/
def Foreign (b : Broker) (effect : Effect) (start : Start) : Prop :=
  ∀ w, b.Concerns effect w → start.socket ≠ w ∧
    ∀ identity, b.HasIdentity effect w identity → startIdentity start ≠ identity

/-- The events that are not for one session: heartbeats, also those that are rejected,
disconnections, and starts, in which old nodes are removed. -/
def AboutNodes : Effect → Prop
  | .ended _ | .timer _ => False
  | _ => True

/-- Sessions of other nodes are left alone, and a node that goes takes its sessions with
it. -/
structure Frame (b : Broker) (event : Event) : Prop where
  kept : ∀ start ∈ b.starts, b.Foreign (b.effect event) start →
    ∀ s, b.sessions.get start.message.sessionId = some s →
      (b.apply event).sessions.get start.message.sessionId = some s
  removed : ∀ start ∈ b.starts, b.effect event = .disconnect start.socket →
    (b.apply event).sessions.get start.message.sessionId = none

/-- No node that is removed or reports its sessions has the name under which a session of
another node is recorded, and a node that goes has the one under which its sessions are. -/
structure NamesApart (b : Broker) (effect : Effect) : Prop where
  foreign : ∀ start ∈ b.starts, b.Foreign effect start →
    b.sessions.has start.message.sessionId = true →
    b.Spares start.hostname start.message.sessionId effect
  own : ∀ start ∈ b.starts, effect = .disconnect start.socket →
    b.sessions.has start.message.sessionId = true →
    ∃ node, b.nodes.get start.socket = some node ∧ node.name = start.hostname

theorem Sound.node {b : Broker} (h : Sound b) {start : Start} (hmem : start ∈ b.starts) {s : Session}
    (hs : b.sessions.get start.message.sessionId = some s) : s.node = start.hostname := by
  obtain ⟨i, hi⟩ := List.getElem?_of_mem hmem
  obtain ⟨j, start', now, hj, hid, rfl⟩ := h.recorded hs
  obtain rfl := h.session hj hi hid
  obtain rfl : start' = start := Option.some.inj (hj.symm.trans hi)
  rfl

theorem spares_iff_kept {b : Broker} (h : Sound b) {event : Event} (henabled : b.Enabled event)
    (habout : AboutNodes (b.effect event)) {start : Start} (hmem : start ∈ b.starts) {s : Session}
    (hs : b.sessions.get start.message.sessionId = some s) :
    (b.apply event).sessions.get start.message.sessionId = some s ↔
      b.Spares start.hostname start.message.sessionId (b.effect event) := by
  rw [sessions_apply h henabled hs, h.node hmem hs]
  cases heffect : b.effect event with
  | ended _ =>
      rw [heffect] at habout
      exact habout.elim
  | timer _ =>
      rw [heffect] at habout
      exact habout.elim
  | _ => simp

/-- In every reachable state an event keeps to its own node exactly if the host names keep
the nodes apart. -/
theorem frame_iff_namesApart {trace : List Event} {b : Broker} (hrun : (system Any).Run trace b)
    (event : Event) (henabled : b.Enabled event) (habout : AboutNodes (b.effect event)) :
    b.Frame event ↔ b.NamesApart (b.effect event) := by
  have h := sound_of_run hrun
  constructor
  · intro hframe
    constructor
    · intro start hmem hforeign hhas
      obtain ⟨s, hs⟩ := Option.isSome_iff_exists.mp hhas
      exact (spares_iff_kept h henabled habout hmem hs).mp (hframe.kept start hmem hforeign s hs)
    · intro start hmem heffect hhas
      obtain ⟨s, hs⟩ := Option.isSome_iff_exists.mp hhas
      have hgone := hframe.removed start hmem heffect
      have hnot := (not_congr (spares_iff_kept h henabled habout hmem hs)).mp (by simp [hgone])
      rw [heffect] at hnot
      simp only [Spares, not_forall, not_not] at hnot
      obtain ⟨node, hnode, heq⟩ := hnot
      exact ⟨node, hnode, heq.symm⟩
  · intro hapart
    constructor
    · intro start hmem hforeign s hs
      refine (spares_iff_kept h henabled habout hmem hs).mpr ?_
      exact hapart.foreign start hmem hforeign (by rw [OrderedMap.has, hs, Option.isSome_some])
    · intro start hmem heffect
      rw [Option.eq_none_iff_forall_ne_some]
      intro s hafter
      have hs : b.sessions.get start.message.sessionId = some s := by
        rw [apply_eq_perform, heffect] at hafter
        exact ((b.deleteNode_sessions start.socket).mp hafter).1
      obtain ⟨node, hnode, hname⟩ := hapart.own start hmem heffect
        (by rw [OrderedMap.has, hs, Option.isSome_some])
      have hspares := (spares_iff_kept h henabled habout hmem hs).mp hafter
      rw [heffect] at hspares
      exact hspares node hnode hname.symm

/-- Two nodes with names of their own. -/
theorem frame_disconnect_twoStarts : Frame (twoStarts.foldl apply (init 0)) (.close 2) := by
  refine (frame_iff_namesApart (run_init (by decide)) (.close 2) trivial trivial).mpr ?_
  have hstarts : (twoStarts.foldl apply (init 0)).starts =
      [⟨1, gameStart "r1" "s1" "alice", "a", "10.0.0.1", [], false⟩,
        ⟨2, gameStart "r2" "s2" "bob", "b", "10.0.0.2", [], false⟩] := rfl
  constructor
  · intro start hmem hforeign _ node hnode
    rw [hstarts] at hmem
    rcases List.mem_pair.mp hmem with rfl | rfl
    · cases hnode
      decide
    · exact absurd rfl (hforeign 2 rfl).1
  · intro start hmem heffect _
    rw [hstarts] at hmem
    rcases List.mem_pair.mp hmem with rfl | rfl
    · cases heffect
    · exact ⟨_, rfl, rfl⟩

/-- One of two nodes of the same host name goes, and takes the session of the other with
it. -/
theorem sameHostname_not_frame :
    ¬ ∀ trace b, (system Any).Run trace b → ∀ event, b.Enabled event →
      AboutNodes (b.effect event) → b.Frame event := by
  intro hall
  have hframe := hall (startsOn "a") ((startsOn "a").foldl apply (init 0)) (run_init (by decide))
    (.close 2) trivial trivial
  let start : Start := ⟨1, gameStart "r1" "s1" "alice", "a", "10.0.0.1", [], false⟩
  have hmem : start ∈ ((startsOn "a").foldl apply (init 0)).starts := List.mem_cons_self
  have hforeign : Foreign ((startsOn "a").foldl apply (init 0)) (.disconnect 2) start := by
    rintro _ rfl
    refine ⟨by decide, ?_⟩
    rintro _ (⟨node, hnode, rfl⟩ | ⟨_, _, heffect, _⟩)
    · cases hnode
      decide
    · cases heffect
  have hkept := hframe.kept start hmem hforeign _ rfl
  cases hkept

/-! ### Sessions in a heartbeat -/

/-- The start has been sent to the node with that host name and address, and its session is
known. -/
def LiveOn (b : Broker) (payload : NodePayload) (start : Start) : Prop :=
  start ∈ b.starts ∧ start.hostname = payload.hostname ∧ start.ip = payload.ip ∧
    b.sessions.has start.message.sessionId = true

/-- A session of the node that it lists is kept, and one that it does not list is not. -/
structure Reconciled (b : Broker) (now : Nat) (ws : Socket) (payload : NodePayload) : Prop where
  kept : ∀ start, b.LiveOn payload start →
    Json.includes payload.sessions (.str start.message.sessionId) = true →
    (b.updateHeartbeat now ws payload).sessions.get start.message.sessionId =
      b.sessions.get start.message.sessionId
  listed : ∀ start, (b.updateHeartbeat now ws payload).LiveOn payload start →
    Json.includes payload.sessions (.str start.message.sessionId) = true

/-- A node that the heartbeat removes has the host name in the heartbeat. -/
def Replaces (b : Broker) (now : Nat) (ws : Socket) (payload : NodePayload) : Prop :=
  ∃ ws' node, b.nodes.get ws' = some node ∧ b.removes now ws payload ws' node = true ∧
    node.name = payload.hostname

theorem live_after {b : Broker} (h : Sound b) {now : Nat} {ws : Socket} {payload : NodePayload}
    {start : Start} (hlive : b.LiveOn payload start) :
    (b.updateHeartbeat now ws payload).sessions.get start.message.sessionId =
        b.sessions.get start.message.sessionId ↔
      ¬ b.Replaces now ws payload ∧ (b.heartbeatName now ws payload = payload.hostname →
        Json.includes payload.sessions (.str start.message.sessionId) = true) := by
  obtain ⟨hmem, hhostname, _, hhas⟩ := hlive
  obtain ⟨s, hs⟩ := Option.isSome_iff_exists.mp hhas
  rw [hs, updateHeartbeat_sessions, h.sessionId hs, h.node hmem hs, hhostname]
  simp only [hs, true_and, Replaces, not_exists, not_and, eq_comm, ne_eq]

theorem live_of_after {b : Broker} {now : Nat} {ws : Socket} {payload : NodePayload}
    {start : Start} :
    (b.updateHeartbeat now ws payload).LiveOn payload start ↔ b.LiveOn payload start ∧
      (b.updateHeartbeat now ws payload).sessions.get start.message.sessionId =
        b.sessions.get start.message.sessionId := by
  unfold LiveOn
  rw [(b.updateHeartbeat_starts now ws payload).starts, OrderedMap.has, OrderedMap.has,
    Option.isSome_iff_exists]
  constructor
  · rintro ⟨hmem, hhostname, hip, s, hs⟩
    have hold := (updateHeartbeat_sessions.mp hs).1
    exact ⟨⟨hmem, hhostname, hip, by rw [hold, Option.isSome_some]⟩, by rw [hs, hold]⟩
  · rintro ⟨⟨hmem, hhostname, hip, hhas⟩, heq⟩
    rw [heq]
    exact ⟨hmem, hhostname, hip, Option.isSome_iff_exists.mp hhas⟩

/-- In every reachable state a heartbeat is followed exactly if it does not replace a node
whose name the sessions in it are recorded under, and the sessions that are not in it are
recorded under the name that it is looked up by or that of a node which goes. -/
theorem reconciled_iff {trace : List Event} {b : Broker} (hrun : (system Any).Run trace b)
    (now : Nat) (ws : Socket) (payload : NodePayload) :
    b.Reconciled now ws payload ↔
      ∀ start, b.LiveOn payload start →
        if Json.includes payload.sessions (.str start.message.sessionId) = true then
          ¬ b.Replaces now ws payload
        else b.Replaces now ws payload ∨ b.heartbeatName now ws payload = payload.hostname := by
  have h := sound_of_run hrun
  constructor
  · intro hrec start hlive
    split
    · next hlisted => exact ((live_after h hlive).mp (hrec.kept start hlive hlisted)).1
    · next hlisted =>
      by_contra hnot
      rw [not_or] at hnot
      refine hlisted (hrec.listed start (live_of_after.mpr ⟨hlive, ?_⟩))
      exact (live_after h hlive).mpr ⟨hnot.1, fun hname => absurd hname hnot.2⟩
  · intro hcond
    constructor
    · intro start hlive hlisted
      have hkeeps := hcond start hlive
      rw [if_pos hlisted] at hkeeps
      exact (live_after h hlive).mpr ⟨hkeeps, fun _ => hlisted⟩
    · intro start hafter
      obtain ⟨hlive, hkept⟩ := live_of_after.mp hafter
      obtain ⟨hno, hname⟩ := (live_after h hlive).mp hkept
      by_contra hlisted
      have hgoes := hcond start hlive
      rw [if_neg hlisted] at hgoes
      exact hlisted (hname (hgoes.resolve_left hno))

/-- One node with a session. -/
def oneStart : List Event :=
  [.message 0 1 (heartbeatMessage "a" "10.0.0.1" []), .start 1 (gameStart "r1" "s1" "alice")]

def reconnected : NodePayload := ⟨"a", [.str "game"], [.str "s1"], "10.0.0.1"⟩

/-- The node reports its session on the same connection. -/
theorem reconciled_oneStart : Reconciled (oneStart.foldl apply (init 0)) 2 1 reconnected := by
  refine (reconciled_iff (run_init (by decide)) 2 1 reconnected).mpr ?_
  rintro start ⟨hmem, _⟩
  obtain rfl := List.mem_singleton.mp hmem
  rw [if_pos (by decide)]
  rintro ⟨ws, node, hnode, hremoves, _⟩
  obtain rfl : ws = 1 := List.mem_singleton.mp (OrderedMap.mem_keys_of_get hnode)
  cases hnode
  revert hremoves
  decide

/-- The node reports its session on a new connection, and the session goes with the old
one. -/
theorem reconnect_loses_session :
    ¬ ∀ trace b, (system Any).Run trace b → ∀ now ws payload, b.Reconciled now ws payload := by
  intro hall
  have hrec := hall oneStart (oneStart.foldl apply (init 0)) (run_init (by decide)) 2 2 reconnected
  have hkept := hrec.kept _ ⟨List.mem_cons_self, rfl, rfl, by decide⟩ (by decide)
  cases hkept

end Broker

end Stratus.Backend
