import Mathlib.Data.List.Basic
import Stratus.Backend.SessionBroker

/-! What each function of the broker can do to its maps. -/
namespace Stratus.Backend

open Stratus.Lib

namespace Broker

/-- Nodes and sessions come and go without the starts being touched. -/
structure SameStarts (b b' : Broker) : Prop where
  pendingStarts : b'.pendingStarts = b.pendingStarts
  pendingStartSessions : b'.pendingStartSessions = b.pendingStartSessions
  starts : b'.starts = b.starts

theorem SameStarts.rfl {b : Broker} : SameStarts b b := ⟨Eq.refl _, Eq.refl _, Eq.refl _⟩

theorem SameStarts.trans {b b' b'' : Broker} (h : SameStarts b b') (h' : SameStarts b' b'') :
    SameStarts b b'' :=
  ⟨h'.1.trans h.1, h'.2.trans h.2, h'.3.trans h.3⟩

/-! ### Deleting nodes -/

theorem deleteNode_starts (b : Broker) (ws : Socket) : SameStarts b (b.deleteNode ws) := by
  unfold deleteNode
  split <;> exact ⟨rfl, rfl, rfl⟩

theorem deleteNode_nodes (b : Broker) (ws : Socket) :
    (b.deleteNode ws).nodes = b.nodes.delete ws := by
  unfold deleteNode
  split <;> rfl

theorem deleteNode_sessions (b : Broker) (ws : Socket) {id : String} {s : Session} :
    (b.deleteNode ws).sessions.get id = some s ↔ b.sessions.get id = some s ∧
      ∀ node, b.nodes.get ws = some node → s.node ≠ node.name := by
  unfold deleteNode
  split
  · next node hnode => simp [deleteNodeSessions, hnode]
  · next hnode => simp [hnode]

/-- A loop over some of the nodes. -/
theorem deleteNodesWhere_spec (p : Socket → NodeInfo → Bool) (keys : List Socket) (b : Broker) :
    SameStarts b (deleteNodesWhere p keys b) ∧
    (∀ ws node, (deleteNodesWhere p keys b).nodes.get ws = some node ↔
      b.nodes.get ws = some node ∧ (ws ∈ keys → p ws node = false)) ∧
    (∀ id s, (deleteNodesWhere p keys b).sessions.get id = some s ↔ b.sessions.get id = some s ∧
      ∀ ws ∈ keys, ∀ node, b.nodes.get ws = some node → p ws node = true → s.node ≠ node.name) := by
  induction keys generalizing b with
  | nil => exact ⟨.rfl, by simp [deleteNodesWhere], by simp [deleteNodesWhere]⟩
  | cons ws keys ih =>
      unfold deleteNodesWhere
      split
      · next node hnode =>
        split
        · next hp =>
          obtain ⟨hstarts, hnodes, hsessions⟩ := ih (b.deleteNode ws)
          refine ⟨(b.deleteNode_starts ws).trans hstarts, fun ws' node' => ?_, fun id s => ?_⟩
          · rw [hnodes, deleteNode_nodes, OrderedMap.get_delete_eq_some]
            by_cases hws : ws' = ws
            · subst hws
              simp only [hnode, Option.some.injEq]
              constructor
              · rintro ⟨⟨hne, _⟩, _⟩
                exact absurd rfl hne
              · rintro ⟨rfl, hkeep⟩
                rw [hkeep List.mem_cons_self] at hp
                cases hp
            · simp [hws]
          · rw [hsessions, deleteNode_sessions, deleteNode_nodes]
            constructor
            · rintro ⟨⟨hs, hfirst⟩, hrest⟩
              refine ⟨hs, fun ws' hws' node' hnode' hp' => ?_⟩
              rcases List.mem_cons.mp hws' with rfl | hws'
              · exact hfirst node' hnode'
              · by_cases hne : ws' = ws
                · exact hfirst node' (hne ▸ hnode')
                · exact hrest ws' hws' node' (by rwa [OrderedMap.get_delete_ne _ hne]) hp'
            · rintro ⟨hs, hall⟩
              refine ⟨⟨hs, fun node' hnode' => ?_⟩, fun ws' hws' node' hnode' hp' => ?_⟩
              · obtain rfl : node = node' := Option.some.inj (hnode.symm.trans hnode')
                exact hall ws List.mem_cons_self node hnode hp
              · exact hall ws' (List.mem_cons_of_mem _ hws') node'
                  (OrderedMap.get_delete_eq_some.mp hnode').2 hp'
        · next hp =>
          obtain ⟨hstarts, hnodes, hsessions⟩ := ih b
          refine ⟨hstarts, fun ws' node' => ?_, fun id s => ?_⟩
          · rw [hnodes]
            by_cases hws : ws' = ws
            · subst hws
              simp only [hnode, Option.some.injEq]
              constructor
              · rintro ⟨rfl, _⟩
                exact ⟨rfl, fun _ => by simpa using hp⟩
              · rintro ⟨rfl, hkeep⟩
                exact ⟨rfl, fun hmem => hkeep (List.mem_cons_of_mem _ hmem)⟩
            · simp [hws]
          · rw [hsessions]
            constructor
            · rintro ⟨hs, hrest⟩
              refine ⟨hs, fun ws' hws' node' hnode' hp' => ?_⟩
              rcases List.mem_cons.mp hws' with rfl | hws'
              · obtain rfl : node = node' := Option.some.inj (hnode.symm.trans hnode')
                exact absurd hp' hp
              · exact hrest ws' hws' node' hnode' hp'
            · rintro ⟨hs, hall⟩
              exact ⟨hs, fun ws' hws' => hall ws' (List.mem_cons_of_mem _ hws')⟩
      · next hnode =>
        obtain ⟨hstarts, hnodes, hsessions⟩ := ih b
        refine ⟨hstarts, fun ws' node' => ?_, fun id s => ?_⟩
        · rw [hnodes]
          by_cases hws : ws' = ws
          · subst hws
            simp [hnode]
          · simp [hws]
        · rw [hsessions]
          simp [hnode]

/-! ### `findNodeByGame` and `startGameSession` -/

/-- A node that a start for that game may be sent to. -/
def free (now : Nat) (gameId : Json) (node : NodeInfo) : Bool :=
  !unresponsive now node && Json.includes node.nodePayload.games gameId &&
    node.nodePayload.sessions.length = 0

/-- The nodes that are looked at before a free one. -/
def passed (nodes : OrderedMap Socket NodeInfo) (now : Nat) (gameId : Json) (keys : List Socket) :
    List Socket :=
  keys.takeWhile fun ws => !(nodes.get ws).any (free now gameId)

/-- The nodes that are looked at have been removed if they have not been heard of. -/
def swept (b : Broker) (now : Nat) (keys : List Socket) : Broker :=
  deleteNodesWhere (fun _ node => unresponsive now node) keys b

theorem findLoop_spec (nodes : OrderedMap Socket NodeInfo) (now : Nat) (gameId : Json)
    (sessionId : String) (keys : List Socket) (hnodup : keys.Nodup) (b : Broker)
    (hsame : ∀ ws ∈ keys, b.nodes.get ws = nodes.get ws) :
    findLoop now gameId sessionId keys b = (b.swept now (passed nodes now gameId keys), none) ∨
    ∃ ws node, nodes.get ws = some node ∧ free now gameId node = true ∧ ws ∈ keys ∧
      findLoop now gameId sessionId keys b =
        ({ b.swept now (passed nodes now gameId keys) with
            nodes := (b.swept now (passed nodes now gameId keys)).nodes.set ws
              (reserve node sessionId) }, some ws) := by
  induction keys generalizing b with
  | nil => exact .inl rfl
  | cons ws keys ih =>
      have hget := hsame ws List.mem_cons_self
      have hrest : ∀ ws' ∈ keys, b.nodes.get ws' = nodes.get ws' :=
        fun ws' h => hsame ws' (List.mem_cons_of_mem _ h)
      -- a node that is not free is passed, whatever is done to it
      have hpass : (nodes.get ws).any (free now gameId) = false →
          passed nodes now gameId (ws :: keys) = ws :: passed nodes now gameId keys := by
        intro hfree
        simp [passed, hfree]
      cases hnode : nodes.get ws with
      | none =>
          rw [hpass (by simp [hnode])]
          simp only [findLoop, hget, hnode, swept, deleteNodesWhere]
          exact (ih hnodup.of_cons b hrest).imp_right fun ⟨ws', node', h, hf, hmem, heq⟩ =>
            ⟨ws', node', h, hf, List.mem_cons_of_mem _ hmem, heq⟩
      | some node =>
          by_cases hstale : unresponsive now node = true
          · rw [hpass (by simp [hnode, free, hstale])]
            simp only [findLoop, hget, hnode, swept, deleteNodesWhere, hstale, if_true]
            have hgone : ∀ ws' ∈ keys, (b.deleteNode ws).nodes.get ws' = nodes.get ws' := by
              intro ws' h
              have hne : ws' ≠ ws := fun heq => (List.nodup_cons.mp hnodup).1 (heq ▸ h)
              rw [deleteNode_nodes, OrderedMap.get_delete_ne _ hne, hrest ws' h]
            exact (ih hnodup.of_cons _ hgone).imp_right fun ⟨ws', node', h, hf, hmem, heq⟩ =>
              ⟨ws', node', h, hf, List.mem_cons_of_mem _ hmem, heq⟩
          · by_cases hfree : free now gameId node = true
            · refine .inr ⟨ws, node, hnode, hfree, List.mem_cons_self, ?_⟩
              have hnone : passed nodes now gameId (ws :: keys) = [] := by
                simp [passed, hnode, hfree]
              have hif : (Json.includes node.nodePayload.games gameId &&
                  decide (node.nodePayload.sessions.length = 0)) = true := by
                simpa [free, hstale] using hfree
              rw [hnone]
              simp only [findLoop, hget, hnode, hstale, hif, swept, deleteNodesWhere, if_true,
                Bool.false_eq_true, if_false]
            · rw [hpass (by simpa [hnode] using hfree)]
              have hif : (Json.includes node.nodePayload.games gameId &&
                  decide (node.nodePayload.sessions.length = 0)) = false := by
                simpa [free, hstale] using hfree
              simp only [findLoop, hget, hnode, hstale, hif, swept, deleteNodesWhere,
                Bool.false_eq_true, if_false]
              exact (ih hnodup.of_cons b hrest).imp_right fun ⟨ws', node', h, hf, hmem, heq⟩ =>
                ⟨ws', node', h, hf, List.mem_cons_of_mem _ hmem, heq⟩

/-- The nodes that a start for that game goes past. -/
def sweep (b : Broker) (now : Nat) (gameId : Json) : Broker :=
  b.swept now (passed b.nodes now gameId b.nodes.keys)

/-- The record of a session. -/
def record (now : Nat) (hostname : String) (message : StartMessage) : Session where
  start := now / 1000
  node := hostname
  sessionId := message.sessionId
  gameId := message.request.gameId
  width := message.request.width
  height := message.request.height
  userId := message.request.userId
  userName := message.request.userName

/-- The state after a start has been sent to the node of a socket. -/
def sent (b : Broker) (now : Nat) (ws : Socket) (node : NodeInfo) (message : StartMessage) :
    Broker where
  nodes := b.nodes.set ws (reserve node message.sessionId)
  lastClear := b.lastClear
  sessions := b.sessions.set message.sessionId (record now node.nodePayload.hostname message)
  pendingStarts := b.pendingStarts.set message.requestId b.starts.length
  pendingStartSessions := b.pendingStartSessions.set message.sessionId message.requestId
  starts := b.starts ++
    [⟨ws, message, node.nodePayload.hostname, node.nodePayload.ip, [], false⟩]

theorem startGameSession_cases (b : Broker) (now : Nat) (message : StartMessage) :
    b.startGameSession now message = (b.sweep now message.request.gameId, none) ∨
    ∃ ws node, b.nodes.get ws = some node ∧ free now message.request.gameId node = true ∧
      b.startGameSession now message =
        ((b.sweep now message.request.gameId).sent now ws node message, some ws) := by
  have hspec := findLoop_spec b.nodes now message.request.gameId message.sessionId b.nodes.keys
    b.nodes.nodup b fun _ _ => rfl
  unfold startGameSession findNodeByGame
  rcases hspec with hnone | ⟨ws, node, hnode, hfree, _, hsome⟩
  · rw [hnone]
    exact .inl rfl
  · rw [hsome]
    refine .inr ⟨ws, node, hnode, hfree, ?_⟩
    simp only [sendStart, OrderedMap.get_set_self]
    rfl

theorem swept_starts (b : Broker) (now : Nat) (keys : List Socket) :
    SameStarts b (b.swept now keys) :=
  (deleteNodesWhere_spec _ keys b).1

theorem swept_nodes {b : Broker} {now : Nat} {keys : List Socket} {ws : Socket} {node : NodeInfo} :
    (b.swept now keys).nodes.get ws = some node ↔
      b.nodes.get ws = some node ∧ (ws ∈ keys → unresponsive now node = false) :=
  (deleteNodesWhere_spec _ keys b).2.1 ws node

theorem swept_sessions {b : Broker} {now : Nat} {keys : List Socket} {id : String} {s : Session} :
    (b.swept now keys).sessions.get id = some s ↔ b.sessions.get id = some s ∧
      ∀ ws ∈ keys, ∀ node, b.nodes.get ws = some node → unresponsive now node = true →
        s.node ≠ node.name :=
  (deleteNodesWhere_spec _ keys b).2.2 id s

/-! ### `updateHeartbeat` -/

/-- The nodes that a heartbeat removes: those that have not been heard of, if it is time to
look for them, and those that another connection with the same identity takes the place of. -/
def removes (b : Broker) (now : Nat) (ws : Socket) (payload : NodePayload) (ws' : Socket)
    (node : NodeInfo) : Bool :=
  (clearFrequency < now - b.lastClear && unresponsive now node) ||
    (ws' ≠ ws && getNodeIdentity node.nodePayload = getNodeIdentity payload)

/-- The name under which the sessions in a heartbeat are looked for. -/
def heartbeatName (b : Broker) (now : Nat) (ws : Socket) (payload : NodePayload) : String :=
  match b.nodes.get ws with
  | some node => if b.removes now ws payload ws node then payload.hostname else node.name
  | none => payload.hostname

theorem clearNow_spec (b : Broker) (now : Nat) :
    SameStarts b (b.clearNow now) ∧
    (∀ ws node, (b.clearNow now).nodes.get ws = some node ↔ b.nodes.get ws = some node ∧
      ¬ (clearFrequency < now - b.lastClear ∧ unresponsive now node = true)) ∧
    (∀ id s, (b.clearNow now).sessions.get id = some s ↔ b.sessions.get id = some s ∧
      ∀ ws node, b.nodes.get ws = some node → clearFrequency < now - b.lastClear →
        unresponsive now node = true → s.node ≠ node.name) := by
  unfold clearNow clearUnresponsive
  split
  · next hclear =>
    obtain ⟨hstarts, hnodes, hsessions⟩ :=
      deleteNodesWhere_spec (fun _ node => unresponsive now node) b.nodes.keys
        { b with lastClear := now }
    refine ⟨⟨hstarts.1, hstarts.2, hstarts.3⟩, fun ws node => ?_, fun id s => ?_⟩
    · rw [hnodes]
      constructor
      · rintro ⟨hget, hkeep⟩
        refine ⟨hget, fun h => ?_⟩
        rw [hkeep (OrderedMap.mem_keys_of_get hget)] at h
        exact absurd h.2 Bool.false_ne_true
      · rintro ⟨hget, hkeep⟩
        exact ⟨hget, fun _ => by simpa [hclear] using hkeep⟩
    · rw [hsessions]
      constructor
      · rintro ⟨hget, hkeep⟩
        exact ⟨hget, fun ws node hnode _ => hkeep ws (OrderedMap.mem_keys_of_get hnode) node hnode⟩
      · rintro ⟨hget, hkeep⟩
        exact ⟨hget, fun ws _ node hnode => hkeep ws node hnode hclear⟩
  · next hclear => exact ⟨.rfl, by simp [hclear], by simp [hclear]⟩

theorem deleteDuplicateNodes_spec (b : Broker) (ws : Socket) (payload : NodePayload) :
    SameStarts b (b.deleteDuplicateNodes ws payload) ∧
    (∀ ws' node, (b.deleteDuplicateNodes ws payload).nodes.get ws' = some node ↔
      b.nodes.get ws' = some node ∧
        ¬ (ws' ≠ ws ∧ getNodeIdentity node.nodePayload = getNodeIdentity payload)) ∧
    (∀ id s, (b.deleteDuplicateNodes ws payload).sessions.get id = some s ↔
      b.sessions.get id = some s ∧ ∀ ws' node, b.nodes.get ws' = some node → ws' ≠ ws →
        getNodeIdentity node.nodePayload = getNodeIdentity payload → s.node ≠ node.name) := by
  obtain ⟨hstarts, hnodes, hsessions⟩ :=
    deleteNodesWhere_spec (fun ws' node => ws' ≠ ws &&
      getNodeIdentity node.nodePayload = getNodeIdentity payload) b.nodes.keys b
  refine ⟨hstarts, fun ws' node => ?_, fun id s => ?_⟩
  · unfold deleteDuplicateNodes
    rw [hnodes]
    constructor
    · rintro ⟨hget, hkeep⟩
      exact ⟨hget, by simpa using hkeep (OrderedMap.mem_keys_of_get hget)⟩
    · rintro ⟨hget, hkeep⟩
      exact ⟨hget, fun _ => by simpa using hkeep⟩
  · unfold deleteDuplicateNodes
    rw [hsessions]
    constructor
    · rintro ⟨hget, hkeep⟩
      exact ⟨hget, fun ws' node hnode hne hid =>
        hkeep ws' (OrderedMap.mem_keys_of_get hnode) node hnode (by simp [hne, hid])⟩
    · rintro ⟨hget, hkeep⟩
      exact ⟨hget, fun ws' _ node hnode hp => by
        simp only [Bool.and_eq_true, decide_eq_true_eq] at hp
        exact hkeep ws' node hnode hp.1 hp.2⟩

theorem removes_iff {b : Broker} {now : Nat} {ws : Socket} {payload : NodePayload} {ws' : Socket}
    {node : NodeInfo} :
    b.removes now ws payload ws' node = true ↔
      (clearFrequency < now - b.lastClear ∧ unresponsive now node = true) ∨
      (ws' ≠ ws ∧ getNodeIdentity node.nodePayload = getNodeIdentity payload) := by
  simp [removes]

/-- The state in which the heartbeat is recorded. -/
def deduplicated (b : Broker) (now : Nat) (ws : Socket) (payload : NodePayload) : Broker :=
  (b.clearNow now).deleteDuplicateNodes ws payload

theorem deduplicated_starts (b : Broker) (now : Nat) (ws : Socket) (payload : NodePayload) :
    SameStarts b (b.deduplicated now ws payload) :=
  (b.clearNow_spec now).1.trans (deleteDuplicateNodes_spec _ ws payload).1

theorem deduplicated_nodes {b : Broker} {now : Nat} {ws : Socket} {payload : NodePayload}
    {ws' : Socket} {node : NodeInfo} :
    (b.deduplicated now ws payload).nodes.get ws' = some node ↔
      b.nodes.get ws' = some node ∧ b.removes now ws payload ws' node = false := by
  rw [deduplicated, (deleteDuplicateNodes_spec _ ws payload).2.1, (b.clearNow_spec now).2.1,
    and_assoc, ← not_or, ← removes_iff, Bool.not_eq_true]

theorem deduplicated_sessions {b : Broker} {now : Nat} {ws : Socket} {payload : NodePayload}
    {id : String} {s : Session} :
    (b.deduplicated now ws payload).sessions.get id = some s ↔ b.sessions.get id = some s ∧
      ∀ ws' node, b.nodes.get ws' = some node → b.removes now ws payload ws' node = true →
        s.node ≠ node.name := by
  rw [deduplicated, (deleteDuplicateNodes_spec _ ws payload).2.2, (b.clearNow_spec now).2.2,
    and_assoc]
  refine and_congr_right fun _ => ⟨?_, ?_⟩
  · rintro ⟨hclear, hdup⟩ ws' node hnode hremoves
    by_cases hstale : clearFrequency < now - b.lastClear ∧ unresponsive now node = true
    · exact hclear ws' node hnode hstale.1 hstale.2
    · have hsame := (removes_iff.mp hremoves).resolve_left hstale
      exact hdup ws' node (((b.clearNow_spec now).2.1 ws' node).mpr ⟨hnode, hstale⟩) hsame.1 hsame.2
  · intro hall
    refine ⟨fun ws' node hnode hnow hstale => ?_, fun ws' node hnode hne hid => ?_⟩
    · exact hall ws' node hnode (removes_iff.mpr (.inl ⟨hnow, hstale⟩))
    · exact hall ws' node (((b.clearNow_spec now).2.1 ws' node).mp hnode).1
        (removes_iff.mpr (.inr ⟨hne, hid⟩))

theorem deduplicated_nodeName (b : Broker) (now : Nat) (ws : Socket) (payload : NodePayload) :
    (b.deduplicated now ws payload).nodeName ws payload = b.heartbeatName now ws payload := by
  unfold nodeName heartbeatName
  cases hnode : b.nodes.get ws with
  | none =>
      cases hget : (b.deduplicated now ws payload).nodes.get ws with
      | none => rfl
      | some node =>
          have hold := (deduplicated_nodes.mp hget).1
          rw [hnode] at hold
          cases hold
  | some node =>
      cases hremoves : b.removes now ws payload ws node with
      | false => simp [deduplicated_nodes.mpr ⟨hnode, hremoves⟩, hremoves]
      | true =>
          cases hget : (b.deduplicated now ws payload).nodes.get ws with
          | none => simp [hremoves]
          | some node' =>
              obtain ⟨hold, hkept⟩ := deduplicated_nodes.mp hget
              obtain rfl : node = node' := Option.some.inj (hnode.symm.trans hold)
              rw [hremoves] at hkept
              cases hkept

theorem updateHeartbeat_starts (b : Broker) (now : Nat) (ws : Socket) (payload : NodePayload) :
    SameStarts b (b.updateHeartbeat now ws payload) :=
  let h := b.deduplicated_starts now ws payload
  ⟨h.1, h.2, h.3⟩

theorem updateHeartbeat_nodes (b : Broker) (now : Nat) (ws : Socket) (payload : NodePayload) :
    (b.updateHeartbeat now ws payload).nodes =
      (b.deduplicated now ws payload).nodes.set ws
        ⟨b.heartbeatName now ws payload, now, payload⟩ := by
  rw [← deduplicated_nodeName]
  rfl

theorem updateHeartbeat_sessions {b : Broker} {now : Nat} {ws : Socket} {payload : NodePayload}
    {id : String} {s : Session} :
    (b.updateHeartbeat now ws payload).sessions.get id = some s ↔ b.sessions.get id = some s ∧
      (∀ ws' node, b.nodes.get ws' = some node → b.removes now ws payload ws' node = true →
        s.node ≠ node.name) ∧
      (s.node = b.heartbeatName now ws payload →
        Json.includes payload.sessions (.str s.sessionId) = true) := by
  rw [← and_assoc, ← deduplicated_sessions, ← deduplicated_nodeName]
  simp only [updateHeartbeat, pruneNodeSessions, OrderedMap.get_deleteWhere_eq_some,
    Bool.and_eq_false_imp, decide_eq_true_eq, Bool.not_eq_false', deduplicated]

end Broker

end Stratus.Backend
