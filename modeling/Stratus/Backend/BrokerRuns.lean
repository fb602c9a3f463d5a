import Stratus.Backend.BrokerEffects

/-! What an event asks of the broker, and what is true of the broker in every run. -/
namespace Stratus.Backend

open Stratus.Lib

namespace Broker

inductive Effect where
  | start (now : Nat) (message : StartMessage)
  | heartbeat (now : Nat) (ws : Socket) (payload : NodePayload)
  | confirm (ws : Socket) (confirm : ConfirmStart)
  /-- `stop_session` or `session_error` -/
  | ended (sessionId : String)
  | disconnect (ws : Socket)
  | timer (i : Nat)
  | nothing

def overEffect (message : Json) : Effect :=
  match sessionOf message with
  | some sessionId => .ended sessionId
  | none => .nothing

/-- What a message asks for. -/
def messageEffect (b : Broker) (now : Nat) (ws : Socket) (message : Json) : Effect :=
  match message.field "type" with
  | some (.str "heartbeat") =>
      match (message.field "payload").bind validPayload with
      | some payload => .heartbeat now ws payload
      | none => .nothing
  | some (.str "start_confirmed") =>
      match b.confirmOf ws message with
      | some confirm => .confirm ws confirm
      | none => .nothing
  | some (.str "stop_session") => overEffect message
  | some (.str "node_disconnect") => .disconnect ws
  | some (.str "session_error") => overEffect message
  | _ => .nothing

def effect (b : Broker) : Event → Effect
  | .start now message => .start now message
  | .message now ws message => b.messageEffect now ws message
  | .close ws => .disconnect ws
  | .timer i => .timer i

def perform (b : Broker) : Effect → Broker
  | .start now message => (b.startGameSession now message).1
  | .heartbeat now ws payload => b.updateHeartbeat now ws payload
  | .confirm _ confirm => b.resolveStart confirm
  | .ended sessionId => b.deleteSession sessionId
  | .disconnect ws => b.deleteNode ws
  | .timer i => b.timeout i
  | .nothing => b

/-- What a message says when it asks for an effect. -/
def Asks (b : Broker) (now : Nat) (ws : Socket) (message : Json) : Effect → Prop
  | .heartbeat now' ws' payload => now' = now ∧ ws' = ws ∧
      message.field "type" = some (.str "heartbeat") ∧
      (message.field "payload").bind validPayload = some payload
  | .confirm ws' confirm => ws' = ws ∧ message.field "type" = some (.str "start_confirmed") ∧
      b.confirmOf ws message = some confirm
  | .ended sessionId => (message.field "type" = some (.str "stop_session") ∨
      message.field "type" = some (.str "session_error")) ∧ sessionOf message = some sessionId
  | .disconnect ws' => ws' = ws ∧ message.field "type" = some (.str "node_disconnect")
  | .nothing => True
  | .start _ _ => False
  | .timer _ => False

theorem asks_overEffect {b : Broker} {now : Nat} {ws : Socket} {message : Json}
    (h : message.field "type" = some (.str "stop_session") ∨
      message.field "type" = some (.str "session_error")) :
    b.Asks now ws message (overEffect message) := by
  unfold overEffect
  split
  · next hsession => exact ⟨h, hsession⟩
  · trivial

theorem asks_messageEffect (b : Broker) (now : Nat) (ws : Socket) (message : Json) :
    b.Asks now ws message (b.messageEffect now ws message) := by
  unfold messageEffect
  split
  · next htype =>
    split
    · next hpayload => exact ⟨rfl, rfl, htype, hpayload⟩
    · trivial
  · next htype =>
    split
    · next hconfirm => exact ⟨rfl, htype, hconfirm⟩
    · trivial
  · next htype => exact asks_overEffect (.inl htype)
  · next htype => exact ⟨rfl, htype⟩
  · next htype => exact asks_overEffect (.inr htype)
  · trivial

theorem effect_message {b : Broker} {now : Nat} {ws : Socket} {message : Json} {effect : Effect}
    (h : b.effect (.message now ws message) = effect) : b.Asks now ws message effect :=
  h ▸ b.asks_messageEffect now ws message

theorem effect_start {b : Broker} {event : Event} {now : Nat} {message : StartMessage}
    (h : b.effect event = .start now message) : event = .start now message := by
  cases event with
  | start now' message' =>
      cases h
      rfl
  | close ws => cases h
  | timer i => cases h
  | message now' ws message' => exact (effect_message h).elim

theorem effect_heartbeat {b : Broker} {event : Event} {now : Nat} {ws : Socket}
    {payload : NodePayload} (h : b.effect event = .heartbeat now ws payload) :
    ∃ message, event = .message now ws message ∧
      message.field "type" = some (.str "heartbeat") ∧
      (message.field "payload").bind validPayload = some payload := by
  cases event with
  | message now' ws' message =>
      obtain ⟨rfl, rfl, htype, hpayload⟩ := effect_message h
      exact ⟨message, rfl, htype, hpayload⟩
  | start _ _ => cases h
  | close _ => cases h
  | timer _ => cases h

theorem effect_confirm {b : Broker} {event : Event} {ws : Socket} {confirm : ConfirmStart}
    (h : b.effect event = .confirm ws confirm) :
    ∃ now message, event = .message now ws message ∧
      message.field "type" = some (.str "start_confirmed") ∧
      b.confirmOf ws message = some confirm := by
  cases event with
  | message now' ws' message =>
      obtain ⟨rfl, htype, hconfirm⟩ := effect_message h
      exact ⟨now', message, rfl, htype, hconfirm⟩
  | start _ _ => cases h
  | close _ => cases h
  | timer _ => cases h

theorem apply_eq_perform (b : Broker) (event : Event) :
    b.apply event = b.perform (b.effect event) := by
  cases event with
  | start now message => rfl
  | close ws => rfl
  | timer i => rfl
  | message now ws message =>
      change b.handleMessage now ws message = b.perform (b.messageEffect now ws message)
      unfold messageEffect
      split
      · next h =>
        simp only [handleMessage, h, heartbeat]
        cases (message.field "payload").bind validPayload <;> rfl
      · next h =>
        simp only [handleMessage, h, startConfirmed]
        cases b.confirmOf ws message <;> rfl
      · next h =>
        simp only [handleMessage, h, sessionOver, overEffect]
        cases sessionOf message <;> rfl
      · next h =>
        simp only [handleMessage, h]
        rfl
      · next h =>
        simp only [handleMessage, h, sessionOver, overEffect]
        cases sessionOf message <;> rfl
      · unfold handleMessage
        split <;> first | contradiction | rfl

/-! ### What holds in every run -/

/-- The starts are told apart by their ids, those that are not settled are the ones waited
for, and every session is that of a start. -/
structure Sound (b : Broker) : Prop where
  request : ∀ {i j : Nat} {start start' : Start}, b.starts[i]? = some start →
    b.starts[j]? = some start' → start.message.requestId = start'.message.requestId → i = j
  session : ∀ {i j : Nat} {start start' : Start}, b.starts[i]? = some start →
    b.starts[j]? = some start' → start.message.sessionId = start'.message.sessionId → i = j
  named : ∀ {i : Nat} {start : Start}, b.starts[i]? = some start → start.message.requestId ≠ ""
  pending : ∀ {requestId : String} {i : Nat}, b.pendingStarts.get requestId = some i ↔
    ∃ start : Start, b.starts[i]? = some start ∧ start.message.requestId = requestId ∧
      start.results = []
  once : ∀ {i : Nat} {start : Start}, b.starts[i]? = some start →
    start.results.length ≤ 1 ∧ (start.timer = true → start.results ≠ [])
  pendingSession : ∀ {sessionId requestId : String},
    b.pendingStartSessions.get sessionId = some requestId →
    ∃ (i : Nat) (start : Start), b.starts[i]? = some start ∧
      start.message.sessionId = sessionId ∧ start.message.requestId = requestId
  recorded : ∀ {sessionId : String} {s : Session}, b.sessions.get sessionId = some s →
    ∃ (i : Nat) (start : Start) (now : Nat), b.starts[i]? = some start ∧
      start.message.sessionId = sessionId ∧ s = record now start.hostname start.message

theorem Sound.start (now : Nat) : Sound (init now) where
  request h := by simp [init] at h
  session h := by simp [init] at h
  named h := by simp [init] at h
  pending := by simp [init]
  once h := by simp [init] at h
  pendingSession h := by simp [init] at h
  recorded h := by simp [init] at h

/-- Nodes and sessions may go. -/
theorem Sound.shrink {b b' : Broker} (h : Sound b) (hstarts : SameStarts b b')
    (hsessions : ∀ id s, b'.sessions.get id = some s → b.sessions.get id = some s) : Sound b' where
  request := by
    rw [hstarts.starts]
    exact h.request
  session := by
    rw [hstarts.starts]
    exact h.session
  named := by
    rw [hstarts.starts]
    exact h.named
  pending := by
    rw [hstarts.starts, hstarts.pendingStarts]
    exact h.pending
  once := by
    rw [hstarts.starts]
    exact h.once
  pendingSession := by
    rw [hstarts.starts, hstarts.pendingStartSessions]
    exact h.pendingSession
  recorded := by
    rw [hstarts.starts]
    exact fun hget => h.recorded (hsessions _ _ hget)

theorem getElem?_modify_eq_some {α : Type} {l : List α} {i j : Nat} {f : α → α} {a : α} :
    (l.modify i f)[j]? = some a ↔ ∃ a', l[j]? = some a' ∧ a = if i = j then f a' else a' := by
  rw [List.getElem?_modify]
  cases l[j]? <;> simp [eq_comm]

/-- A start changes in its results or its timer, and so may what is waited for. -/
theorem Sound.modify {b b' : Broker} (h : Sound b) {i : Nat} {f : Start → Start}
    (hf : ∀ old : Start, (f old).message = old.message ∧ (f old).hostname = old.hostname)
    (hstarts : b'.starts = b.starts.modify i f)
    (hpending : ∀ requestId j, b'.pendingStarts.get requestId = some j ↔
      ∃ start : Start, b.starts[j]? = some start ∧ start.message.requestId = requestId ∧
        (if i = j then f start else start).results = [])
    (honce : ∀ start, b.starts[i]? = some start →
      (f start).results.length ≤ 1 ∧ ((f start).timer = true → (f start).results ≠ []))
    (hpendingSessions : ∀ id r, b'.pendingStartSessions.get id = some r →
      b.pendingStartSessions.get id = some r)
    (hsessions : ∀ id s, b'.sessions.get id = some s → b.sessions.get id = some s) : Sound b' := by
  have hsame : ∀ (j : Nat) (old : Start),
      (if i = j then f old else old).message = old.message ∧
      (if i = j then f old else old).hostname = old.hostname := by
    intro j old
    split
    · exact hf old
    · exact ⟨rfl, rfl⟩
  have hget : ∀ {j : Nat} {start : Start}, b'.starts[j]? = some start ↔
      ∃ old, b.starts[j]? = some old ∧ start = if i = j then f old else old := by
    intro j start
    rw [hstarts]
    exact getElem?_modify_eq_some
  constructor
  · intro j k start start' hj hk heq
    obtain ⟨old, hold, rfl⟩ := hget.mp hj
    obtain ⟨old', hold', rfl⟩ := hget.mp hk
    rw [(hsame j old).1, (hsame k old').1] at heq
    exact h.request hold hold' heq
  · intro j k start start' hj hk heq
    obtain ⟨old, hold, rfl⟩ := hget.mp hj
    obtain ⟨old', hold', rfl⟩ := hget.mp hk
    rw [(hsame j old).1, (hsame k old').1] at heq
    exact h.session hold hold' heq
  · intro j start hj
    obtain ⟨old, hold, rfl⟩ := hget.mp hj
    rw [(hsame j old).1]
    exact h.named hold
  · intro requestId j
    rw [hpending]
    constructor
    · rintro ⟨old, hj, rfl, hopen⟩
      exact ⟨_, hget.mpr ⟨old, hj, rfl⟩, by rw [(hsame j old).1], hopen⟩
    · rintro ⟨start, hj, rfl, hopen⟩
      obtain ⟨old, hold, rfl⟩ := hget.mp hj
      exact ⟨old, hold, by rw [(hsame j old).1], hopen⟩
  · intro j start hj
    obtain ⟨old, hold, rfl⟩ := hget.mp hj
    split
    · next hij =>
      subst hij
      exact honce old hold
    · exact h.once hold
  · intro sessionId requestId hpend
    obtain ⟨j, old, hj, hs, hr⟩ := h.pendingSession (hpendingSessions _ _ hpend)
    exact ⟨j, _, hget.mpr ⟨old, hj, rfl⟩, by rw [(hsame j old).1, hs], by rw [(hsame j old).1, hr]⟩
  · intro sessionId s hs
    obtain ⟨j, old, now, hj, hid, hr⟩ := h.recorded (hsessions _ _ hs)
    exact ⟨j, _, now, hget.mpr ⟨old, hj, rfl⟩, by rw [(hsame j old).1, hid],
      by rw [(hsame j old).1, (hsame j old).2, hr]⟩

/-- A start is settled. -/
theorem Sound.settle {b b' : Broker} (h : Sound b) {i : Nat} {start : Start}
    {result : Option ConfirmStart} {f : Start → Start} (hi : b.starts[i]? = some start)
    (hopen : start.results = [])
    (hf : ∀ old : Start, (f old).message = old.message ∧ (f old).hostname = old.hostname ∧
      (f old).results = old.results ++ [result])
    (hstarts : b'.starts = b.starts.modify i f)
    (hpending : b'.pendingStarts = b.pendingStarts.delete start.message.requestId)
    (hpendingSessions : ∀ id r, b'.pendingStartSessions.get id = some r →
      b.pendingStartSessions.get id = some r)
    (hsessions : ∀ id s, b'.sessions.get id = some s → b.sessions.get id = some s) : Sound b' := by
  refine h.modify (fun old => ⟨(hf old).1, (hf old).2.1⟩) hstarts ?_ ?_ hpendingSessions hsessions
  · intro requestId j
    rw [hpending, OrderedMap.get_delete_eq_some, h.pending]
    by_cases hij : i = j
    · subst hij
      simp only [hi, if_true, (hf _).2.2]
      constructor
      · rintro ⟨hne, _, ⟨rfl⟩, rfl, _⟩
        exact absurd rfl hne
      · simp
    · simp only [hij, if_false]
      constructor
      · rintro ⟨_, hrest⟩
        exact hrest
      · rintro ⟨old, hj, rfl, hresults⟩
        exact ⟨fun heq => hij (h.request hi hj heq.symm), old, hj, rfl, hresults⟩
  · intro old hold
    obtain rfl : start = old := Option.some.inj (hi.symm.trans hold)
    rw [(hf _).2.2, hopen]
    exact ⟨Nat.le_refl 1, fun _ => List.cons_ne_nil _ _⟩

/-- A new start. -/
theorem Sound.sent {b : Broker} (h : Sound b) {now : Nat} {ws : Socket} {node : NodeInfo}
    {message : StartMessage} (hname : message.requestId ≠ "")
    (hnew : ∀ start ∈ b.starts, start.message.requestId ≠ message.requestId ∧
      start.message.sessionId ≠ message.sessionId) : Sound (b.sent now ws node message) := by
  let started : Start := ⟨ws, message, node.nodePayload.hostname, node.nodePayload.ip, [], false⟩
  have hcases : ∀ {i : Nat} {start : Start}, (b.starts ++ [started])[i]? = some start →
      b.starts[i]? = some start ∨ (i = b.starts.length ∧ start = started) := by
    exact getElem?_snoc_cases
  have hkeep : ∀ {i : Nat} {start : Start}, b.starts[i]? = some start →
      (b.starts ++ [started])[i]? = some start := by
    intro i start hi
    obtain ⟨hlt, _⟩ := List.getElem?_eq_some_iff.mp hi
    rwa [List.getElem?_append_left hlt]
  have hlast : (b.starts ++ [started])[b.starts.length]? = some started :=
    List.getElem?_concat_length
  have hfresh : ∀ {i : Nat} {start : Start}, b.starts[i]? = some start →
      start.message.requestId ≠ message.requestId ∧ start.message.sessionId ≠ message.sessionId :=
    fun hi => hnew _ (List.mem_of_getElem? hi)
  constructor
  · intro i j start start' hi hj heq
    rcases hcases hi with hi | ⟨rfl, rfl⟩ <;> rcases hcases hj with hj | ⟨rfl, rfl⟩
    · exact h.request hi hj heq
    · exact absurd heq (hfresh hi).1
    · exact absurd heq.symm (hfresh hj).1
    · rfl
  · intro i j start start' hi hj heq
    rcases hcases hi with hi | ⟨rfl, rfl⟩ <;> rcases hcases hj with hj | ⟨rfl, rfl⟩
    · exact h.session hi hj heq
    · exact absurd heq (hfresh hi).2
    · exact absurd heq.symm (hfresh hj).2
    · rfl
  · intro i start hi
    rcases hcases hi with hi | ⟨rfl, rfl⟩
    · exact h.named hi
    · exact hname
  · intro requestId i
    change (b.pendingStarts.set message.requestId b.starts.length).get requestId = some i ↔
      ∃ start : Start, (b.starts ++ [started])[i]? = some start ∧ _
    by_cases hreq : requestId = message.requestId
    · subst hreq
      rw [OrderedMap.get_set_self]
      constructor
      · rintro ⟨rfl⟩
        exact ⟨started, hlast, rfl, rfl⟩
      · rintro ⟨start, hi, heq, _⟩
        rcases hcases hi with hi | ⟨rfl, rfl⟩
        · exact absurd heq (hfresh hi).1
        · rfl
    · rw [OrderedMap.get_set_ne _ _ hreq, h.pending]
      constructor
      · rintro ⟨start, hi, heq, hopen⟩
        exact ⟨start, hkeep hi, heq, hopen⟩
      · rintro ⟨start, hi, heq, hopen⟩
        rcases hcases hi with hi | ⟨rfl, rfl⟩
        · exact ⟨start, hi, heq, hopen⟩
        · exact absurd heq.symm hreq
  · intro i start hi
    rcases hcases hi with hi | ⟨rfl, rfl⟩
    · exact h.once hi
    · exact ⟨Nat.zero_le 1, fun htimer => absurd htimer Bool.false_ne_true⟩
  · intro sessionId requestId hget
    change (b.pendingStartSessions.set message.sessionId message.requestId).get sessionId = _ at hget
    by_cases hs : sessionId = message.sessionId
    · subst hs
      rw [OrderedMap.get_set_self] at hget
      exact ⟨_, started, hlast, rfl, Option.some.inj hget⟩
    · rw [OrderedMap.get_set_ne _ _ hs] at hget
      obtain ⟨i, start, hi, hrest⟩ := h.pendingSession hget
      exact ⟨i, start, hkeep hi, hrest⟩
  · intro sessionId s hget
    change (b.sessions.set message.sessionId _).get sessionId = _ at hget
    by_cases hs : sessionId = message.sessionId
    · subst hs
      rw [OrderedMap.get_set_self] at hget
      exact ⟨_, started, now, hlast, rfl, (Option.some.inj hget).symm⟩
    · rw [OrderedMap.get_set_ne _ _ hs] at hget
      obtain ⟨i, start, now', hi, hrest⟩ := h.recorded hget
      exact ⟨i, start, now', hkeep hi, hrest⟩

/-- What a confirmation does: nothing, or it settles the start that it is taken for. -/
theorem resolveStart_cases {b : Broker} (h : Sound b) (confirm : ConfirmStart) :
    (b.resolveStart confirm = b ∧ ∀ requestId, b.matching confirm = some requestId →
      b.pendingStarts.get requestId = none) ∨
    ∃ (i : Nat) (start : Start), b.starts[i]? = some start ∧ start.results = [] ∧
      b.matching confirm = some start.message.requestId ∧
      b.resolveStart confirm =
        (deletePendingSession
          { b with pendingStarts := b.pendingStarts.delete start.message.requestId }
          confirm.sessionId).resolve i (some confirm) := by
  unfold resolveStart
  cases hmatch : b.matching confirm with
  | none => exact .inl ⟨rfl, by simp⟩
  | some requestId =>
      cases hget : b.pendingStarts.get requestId with
      | none =>
          refine .inl ⟨?_, fun _ heq => Option.some.inj heq ▸ hget⟩
          dsimp only
          split
          · rfl
          · rw [hget]
      | some i =>
          obtain ⟨start, hi, rfl, hopen⟩ := h.pending.mp hget
          refine .inr ⟨i, start, hi, hopen, rfl, ?_⟩
          simp only [h.named hi, if_false, hget]

theorem deletePendingSession_get {b : Broker} {value : Json} {sessionId requestId : String} :
    (b.deletePendingSession value).pendingStartSessions.get sessionId = some requestId ↔
      value ≠ .str sessionId ∧ b.pendingStartSessions.get sessionId = some requestId := by
  cases value with
  | str sessionId' =>
      simp only [deletePendingSession, OrderedMap.get_delete_eq_some, ne_eq, Json.str.injEq]
      rw [eq_comm]
  | _ => simp [deletePendingSession]

theorem deletePendingSession_rest (b : Broker) (value : Json) :
    (b.deletePendingSession value).starts = b.starts ∧
    (b.deletePendingSession value).pendingStarts = b.pendingStarts ∧
    (b.deletePendingSession value).sessions = b.sessions ∧
    (b.deletePendingSession value).nodes = b.nodes := by
  cases value <;> exact ⟨rfl, rfl, rfl, rfl⟩

theorem Sound.resolveStart {b : Broker} (h : Sound b) (confirm : ConfirmStart) :
    Sound (b.resolveStart confirm) := by
  rcases resolveStart_cases h confirm with ⟨heq, _⟩ | ⟨i, start, hi, hopen, _, heq⟩
  · rw [heq]
    exact h
  · rw [heq]
    obtain ⟨hstarts, hpending, hsessions, _⟩ := deletePendingSession_rest
      { b with pendingStarts := b.pendingStarts.delete start.message.requestId } confirm.sessionId
    refine h.settle hi hopen (f := fun old => { old with results := old.results ++ [some confirm] })
      (fun _ => ⟨rfl, rfl, rfl⟩) ?_ hpending
      (fun id r hget => (deletePendingSession_get.mp hget).2) ?_
    · exact congrArg (fun starts => List.modify starts i _) hstarts
    · intro id s hget
      change (deletePendingSession _ _).sessions.get id = some s at hget
      rwa [hsessions] at hget

/-- What a timer does: it settles a start that is waited for, else nothing. -/
theorem timeout_cases {b : Broker} (h : Sound b) (i : Nat) :
    (b.timeout i =
        { b with starts := b.starts.modify i fun start => { start with timer := true } } ∧
      ∀ start : Start, b.starts[i]? = some start → start.results ≠ []) ∨
    ∃ start : Start, b.starts[i]? = some start ∧ start.results = [] ∧
      b.timeout i =
        { b with
          sessions := b.sessions.delete start.message.sessionId
          pendingStarts := b.pendingStarts.delete start.message.requestId
          pendingStartSessions := b.pendingStartSessions.delete start.message.sessionId
          starts := b.starts.modify i fun start =>
            { start with results := start.results ++ [none], timer := true } } := by
  unfold timeout
  simp only [List.getElem?_modify_eq]
  cases hi : b.starts[i]? with
  | none => exact .inl ⟨rfl, by simp⟩
  | some start =>
      cases hget : b.pendingStarts.get start.message.requestId with
      | none =>
          refine .inl ⟨by simp [OrderedMap.has, hget], ?_⟩
          rintro _ ⟨rfl⟩ hopen
          have := h.pending.mpr ⟨start, hi, rfl, hopen⟩
          rw [hget] at this
          cases this
      | some j =>
          obtain ⟨start', hj, hrequest, hopen⟩ := h.pending.mp hget
          obtain rfl := h.request hj hi hrequest
          obtain rfl : start' = start := Option.some.inj (hj.symm.trans hi)
          refine .inr ⟨start', rfl, hopen, ?_⟩
          simp only [OrderedMap.has, hget, Option.isSome_some, if_true, deleteSession, resolve,
            List.modify_modify_eq, Option.map_eq_map, Option.map_some]
          rfl

theorem Sound.timeout {b : Broker} (h : Sound b) (i : Nat) : Sound (b.timeout i) := by
  rcases timeout_cases h i with ⟨heq, hsettled⟩ | ⟨start, hi, hopen, heq⟩
  · rw [heq]
    refine h.modify (f := fun old => { old with timer := true }) (fun _ => ⟨rfl, rfl⟩) rfl ?_ ?_
      (fun _ _ hget => hget) (fun _ _ hget => hget)
    · intro requestId j
      rw [h.pending]
      refine exists_congr fun old => and_congr_right fun _ => and_congr_right fun _ => ?_
      split <;> rfl
    · intro start hi
      exact ⟨(h.once hi).1, fun _ => hsettled start hi⟩
  · rw [heq]
    exact h.settle hi hopen
      (f := fun old => { old with results := old.results ++ [none], timer := true })
      (fun _ => ⟨rfl, rfl, rfl⟩) rfl rfl (fun _ _ hget => (OrderedMap.get_delete_eq_some.mp hget).2)
      (fun _ _ hget => (OrderedMap.get_delete_eq_some.mp hget).2)

theorem startGameSession_sound {b : Broker} (h : Sound b) {now : Nat} {message : StartMessage}
    (hname : message.requestId ≠ "")
    (hnew : ∀ start ∈ b.starts, start.message.requestId ≠ message.requestId ∧
      start.message.sessionId ≠ message.sessionId) : Sound (b.startGameSession now message).1 := by
  have hsweep : Sound (b.sweep now message.request.gameId) :=
    h.shrink (swept_starts _ _ _) fun id s hget => (swept_sessions.mp hget).1
  rcases startGameSession_cases b now message with heq | ⟨ws, node, _, _, heq⟩
  · rw [heq]
    exact hsweep
  · rw [heq]
    refine hsweep.sent hname ?_
    rw [sweep, (swept_starts _ _ _).starts]
    exact hnew

theorem Sound.apply {b : Broker} (h : Sound b) {event : Event} (henabled : b.Enabled event) :
    Sound (b.apply event) := by
  rw [apply_eq_perform]
  cases heffect : b.effect event with
  | start now message =>
      obtain rfl := effect_start heffect
      exact startGameSession_sound h henabled.1 henabled.2.2
  | heartbeat now ws payload =>
      exact h.shrink (b.updateHeartbeat_starts now ws payload)
        fun id s hget => (updateHeartbeat_sessions.mp hget).1
  | confirm ws confirm => exact h.resolveStart confirm
  | ended sessionId =>
      exact h.shrink ⟨rfl, rfl, rfl⟩ fun id s hget => (OrderedMap.get_delete_eq_some.mp hget).2
  | disconnect ws =>
      exact h.shrink (b.deleteNode_starts ws) fun id s hget => ((b.deleteNode_sessions ws).mp hget).1
  | timer i => exact h.timeout i
  | nothing => exact h

theorem sound_of_run {allowed : Broker → Event → Prop} {trace : List Event} {b : Broker}
    (hrun : (system allowed).Run trace b) : Sound b := by
  refine hrun.always Sound ?_ ?_
  · rintro _ ⟨now, rfl⟩
    exact .start now
  · rintro b event _ h ⟨henabled, _, rfl⟩
    exact h.apply henabled

/-! ### What an event can do to a node and to a start -/

theorem resolveStart_nodes (b : Broker) (confirm : ConfirmStart) :
    (b.resolveStart confirm).nodes = b.nodes := by
  unfold resolveStart
  split
  · rfl
  · split
    · rfl
    · split
      · rfl
      · exact (deletePendingSession_rest _ _).2.2.2

theorem timeout_nodes (b : Broker) (i : Nat) : (b.timeout i).nodes = b.nodes := by
  simp only [timeout]
  split
  · rfl
  · split <;> rfl

theorem nodes_apply {b : Broker} {event : Event} {ws : Socket} {node' : NodeInfo}
    (hget : (b.apply event).nodes.get ws = some node') :
    b.nodes.get ws = some node' ∨
    (∃ now message node, b.effect event = .start now message ∧ b.nodes.get ws = some node ∧
      free now message.request.gameId node = true ∧ node' = reserve node message.sessionId) ∨
    (∃ now payload, b.effect event = .heartbeat now ws payload ∧
      node' = ⟨b.heartbeatName now ws payload, now, payload⟩) := by
  rw [apply_eq_perform] at hget
  cases heffect : b.effect event with
  | start now message =>
      rw [heffect] at hget
      change (b.startGameSession now message).1.nodes.get ws = some node' at hget
      rcases startGameSession_cases b now message with heq | ⟨ws', node, hnode, hfree, heq⟩
      · rw [heq] at hget
        exact .inl (swept_nodes.mp hget).1
      · rw [heq] at hget
        change ((b.sweep now message.request.gameId).nodes.set ws' _).get ws = some node' at hget
        by_cases hws : ws = ws'
        · subst hws
          rw [OrderedMap.get_set_self] at hget
          cases hget
          exact .inr (.inl ⟨now, message, node, rfl, hnode, hfree, rfl⟩)
        · rw [OrderedMap.get_set_ne _ _ hws] at hget
          exact .inl (swept_nodes.mp hget).1
  | heartbeat now ws' payload =>
      rw [heffect] at hget
      change (b.updateHeartbeat now ws' payload).nodes.get ws = some node' at hget
      rw [updateHeartbeat_nodes] at hget
      by_cases hws : ws = ws'
      · subst hws
        rw [OrderedMap.get_set_self] at hget
        cases hget
        exact .inr (.inr ⟨now, payload, rfl, rfl⟩)
      · rw [OrderedMap.get_set_ne _ _ hws] at hget
        exact .inl (deduplicated_nodes.mp hget).1
  | confirm ws' confirm =>
      rw [heffect] at hget
      change (b.resolveStart confirm).nodes.get ws = some node' at hget
      rw [resolveStart_nodes] at hget
      exact .inl hget
  | ended sessionId =>
      rw [heffect] at hget
      exact .inl hget
  | disconnect ws' =>
      rw [heffect] at hget
      change (b.deleteNode ws').nodes.get ws = some node' at hget
      rw [deleteNode_nodes] at hget
      exact .inl (OrderedMap.get_delete_eq_some.mp hget).2
  | timer i =>
      rw [heffect] at hget
      change (b.timeout i).nodes.get ws = some node' at hget
      rw [timeout_nodes] at hget
      exact .inl hget
  | nothing =>
      rw [heffect] at hget
      exact .inl hget

/-- Both have been sent for the same request to the same node. -/
structure Start.Same (start start' : Start) : Prop where
  socket : start'.socket = start.socket
  message : start'.message = start.message
  hostname : start'.hostname = start.hostname
  ip : start'.ip = start.ip

theorem Start.Same.rfl {start : Start} : Start.Same start start :=
  ⟨Eq.refl _, Eq.refl _, Eq.refl _, Eq.refl _⟩

theorem resolveStart_starts {b : Broker} (h : Sound b) {confirm : ConfirmStart} {i : Nat}
    {start' : Start} (hget : (b.resolveStart confirm).starts[i]? = some start') :
    b.starts[i]? = some start' ∨
    ∃ start : Start, b.starts[i]? = some start ∧ Start.Same start start' ∧ start.results = [] ∧
      b.matching confirm = some start.message.requestId ∧ start'.results = [some confirm] := by
  rcases resolveStart_cases h confirm with ⟨heq, _⟩ | ⟨j, start, hj, hopen, hmatch, heq⟩
  · rw [heq] at hget
    exact .inl hget
  · have hstarts : (b.resolveStart confirm).starts = b.starts.modify j fun old =>
        { old with results := old.results ++ [some confirm] } := by
      rw [heq]
      exact congrArg (fun starts => List.modify starts j _) (deletePendingSession_rest _ _).1
    rw [hstarts] at hget
    obtain ⟨old, hold, rfl⟩ := getElem?_modify_eq_some.mp hget
    split
    · next hji =>
      subst hji
      obtain rfl : start = old := Option.some.inj (hj.symm.trans hold)
      exact .inr ⟨start, hold, ⟨rfl, rfl, rfl, rfl⟩, hopen, hmatch, by simp [hopen]⟩
    · exact .inl hold

theorem timeout_starts {b : Broker} (h : Sound b) {i j : Nat} {start' : Start}
    (hget : (b.timeout j).starts[i]? = some start') :
    ∃ start : Start, b.starts[i]? = some start ∧ Start.Same start start' ∧
      ((start'.results = start.results ∧ (i = j → start.results ≠ [])) ∨
        start'.results = [none]) := by
  rcases timeout_cases h j with ⟨heq, hsettled⟩ | ⟨start, hj, hopen, heq⟩
  · rw [heq] at hget
    obtain ⟨old, hold, rfl⟩ := getElem?_modify_eq_some.mp hget
    refine ⟨old, hold, ?_⟩
    split <;> exact ⟨⟨rfl, rfl, rfl, rfl⟩, .inl ⟨rfl, fun hij => hsettled old (hij ▸ hold)⟩⟩
  · rw [heq] at hget
    obtain ⟨old, hold, rfl⟩ := getElem?_modify_eq_some.mp hget
    refine ⟨old, hold, ?_⟩
    split
    · next hji =>
      subst hji
      obtain rfl : start = old := Option.some.inj (hj.symm.trans hold)
      exact ⟨⟨rfl, rfl, rfl, rfl⟩, .inr (by simp [hopen])⟩
    · next hji => exact ⟨.rfl, .inl ⟨rfl, fun hij => absurd hij.symm hji⟩⟩

/-- A start is new, is settled by a confirmation or stays, unless it is settled without one. -/
theorem starts_apply {b : Broker} (h : Sound b) {event : Event} {i : Nat} {start' : Start}
    (hget : (b.apply event).starts[i]? = some start') :
    (∃ start : Start, b.starts[i]? = some start ∧ Start.Same start start' ∧
      ((start'.results = start.results ∧ (b.effect event = .timer i → start.results ≠ [])) ∨
        start'.results = [none])) ∨
    (∃ ws confirm, ∃ start : Start, b.effect event = .confirm ws confirm ∧
      b.starts[i]? = some start ∧ Start.Same start start' ∧ start.results = [] ∧
      b.matching confirm = some start.message.requestId ∧ start'.results = [some confirm]) ∨
    (∃ now message ws node, b.effect event = .start now message ∧ b.nodes.get ws = some node ∧
      i = b.starts.length ∧
      start' = ⟨ws, message, node.nodePayload.hostname, node.nodePayload.ip, [], false⟩ ∧
      (b.apply event).sessions.get message.sessionId =
        some (record now node.nodePayload.hostname message)) := by
  -- the effects that do not touch the starts
  have hstays : ∀ {b' : Broker} {effect : Effect}, SameStarts b b' → b'.starts[i]? = some start' →
      effect ≠ .timer i →
      ∃ start : Start, b.starts[i]? = some start ∧ Start.Same start start' ∧
        ((start'.results = start.results ∧ (effect = .timer i → start.results ≠ [])) ∨
          start'.results = [none]) :=
    fun hsame hget hno => ⟨start', hsame.starts ▸ hget, .rfl, .inl ⟨rfl, fun h => absurd h hno⟩⟩
  rw [apply_eq_perform] at hget ⊢
  cases heffect : b.effect event with
  | start now message =>
      rw [heffect] at hget
      change (b.startGameSession now message).1.starts[i]? = some start' at hget
      have hsweep : SameStarts b (b.sweep now message.request.gameId) := swept_starts _ _ _
      rcases startGameSession_cases b now message with heq | ⟨ws, node, hnode, _, heq⟩
      · rw [heq] at hget
        exact .inl (hstays hsweep hget nofun)
      · rw [heq] at hget
        change ((b.sweep now message.request.gameId).starts ++ [_])[i]? = some start' at hget
        rw [hsweep.starts] at hget
        rcases getElem?_snoc_cases hget with hold | ⟨rfl, hnew⟩
        · exact .inl ⟨start', hold, .rfl, .inl ⟨rfl, nofun⟩⟩
        · refine .inr (.inr ⟨now, message, ws, node, rfl, hnode, rfl, hnew, ?_⟩)
          change (b.startGameSession now message).1.sessions.get message.sessionId = _
          rw [heq]
          exact OrderedMap.get_set_self ..
  | heartbeat now ws payload =>
      rw [heffect] at hget
      exact .inl (hstays (b.updateHeartbeat_starts now ws payload) hget nofun)
  | confirm ws confirm =>
      rw [heffect] at hget
      rcases resolveStart_starts h hget with hold | ⟨start, hold, hrest⟩
      · exact .inl ⟨start', hold, .rfl, .inl ⟨rfl, nofun⟩⟩
      · exact .inr (.inl ⟨ws, confirm, start, rfl, hold, hrest⟩)
  | ended sessionId =>
      rw [heffect] at hget
      exact .inl (hstays ⟨rfl, rfl, rfl⟩ hget nofun)
  | disconnect ws =>
      rw [heffect] at hget
      exact .inl (hstays (b.deleteNode_starts ws) hget nofun)
  | timer j =>
      rw [heffect] at hget
      obtain ⟨start, hold, hsame, hresults⟩ := timeout_starts h hget
      exact .inl ⟨start, hold, hsame, hresults.imp_left fun ⟨heq, hsettled⟩ =>
        ⟨heq, fun htimer => hsettled (Effect.timer.inj htimer).symm⟩⟩
  | nothing =>
      rw [heffect] at hget
      exact .inl (hstays .rfl hget nofun)

/-! ### Runs event by event -/

instance (b : Broker) (event : Event) : Decidable (b.Enabled event) :=
  match event with
  | .start _ message =>
      inferInstanceAs (Decidable (message.requestId ≠ "" ∧ message.sessionId ≠ "" ∧
        ∀ start ∈ b.starts, start.message.requestId ≠ message.requestId ∧
          start.message.sessionId ≠ message.sessionId))
  | .timer i =>
      decidable_of_iff ((b.starts[i]?).any (fun start => !start.timer) = true) (by
        simp [Enabled, Option.any_eq_true])
  | .message .. => .isTrue trivial
  | .close _ => .isTrue trivial

/-- Every one of the events is enabled and allowed when it comes. -/
def Follows (allowed : Broker → Event → Prop) : Broker → List Event → Prop
  | _, [] => True
  | b, event :: events => b.Enabled event ∧ allowed b event ∧ Follows allowed (b.apply event) events

instance Follows.decidable {allowed : Broker → Event → Prop}
    [∀ b event, Decidable (allowed b event)] :
    (b : Broker) → (events : List Event) → Decidable (Follows allowed b events)
  | _, [] => .isTrue trivial
  | b, event :: events =>
      have : Decidable (Follows allowed (b.apply event) events) := Follows.decidable _ events
      inferInstanceAs (Decidable (_ ∧ _ ∧ _))

/-- Any event may come. -/
def Any (_ : Broker) (_ : Event) : Prop := True

instance (b : Broker) (event : Event) : Decidable (Any b event) := .isTrue trivial

theorem run_of_follows {allowed : Broker → Event → Prop} {trace : List Event} {b : Broker}
    (hrun : (system allowed).Run trace b) {events : List Event} (h : Follows allowed b events) :
    (system allowed).Run (trace ++ events) (events.foldl apply b) := by
  induction events generalizing trace b with
  | nil => simpa using hrun
  | cons event events ih =>
      obtain ⟨henabled, hallowed, hrest⟩ := h
      have hnext := ih (.next hrun ⟨henabled, hallowed, rfl⟩) hrest
      simpa using hnext

theorem run_init {allowed : Broker → Event → Prop} {events : List Event}
    (h : Follows allowed (init 0) events) :
    (system allowed).Run events (events.foldl apply (init 0)) :=
  run_of_follows (.start ⟨0, rfl⟩) h

end Broker

/-! Messages of a node with one game, and a start of that game. -/

def heartbeatMessage (hostname ip : String) (sessions : List String) : Json :=
  .obj [("type", .str "heartbeat"), ("payload", .obj [("hostname", .str hostname),
    ("games", .arr [.str "game"]), ("sessions", .arr (sessions.map .str)), ("ip", .str ip)])]

def confirmMessage (requestId sessionId tlsFingerprint : String) : Json :=
  .obj [("type", .str "start_confirmed"), ("request_id", .str requestId),
    ("payload", .obj [("session_id", .str sessionId), ("tls_fingerprint", .str tlsFingerprint)])]

def gameStart (requestId sessionId userId : String) : StartMessage :=
  ⟨requestId, sessionId, ⟨.str "game", userId, userId, .num 640, .num 480⟩⟩

namespace Broker

/-- Two nodes, of which the second has that host name, and a start on each of them. -/
def startsOn (hostname : String) : List Event :=
  [.message 0 1 (heartbeatMessage "a" "10.0.0.1" []),
    .message 0 2 (heartbeatMessage hostname "10.0.0.2" []),
    .start 1 (gameStart "r1" "s1" "alice"), .start 1 (gameStart "r2" "s2" "bob")]

def twoStarts : List Event := startsOn "b"

end Broker

end Stratus.Backend
