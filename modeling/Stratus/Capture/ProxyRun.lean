import Stratus.Capture.ProxyStreams

/-! `proxy_run`: the loop that serves all clients, on what they send.  Whatever stops it stops it for
everybody. -/
namespace Stratus.Capture

/-- `wl_map_insert_at` finds room for an id. -/
def WlMap.Fits {α : Type} (m : WlMap α) (id : Nat) : Prop :=
  if id < serverIdStart then id ≤ maxObjects ∧ id ≤ m.client.length
  else id - serverIdStart ≤ maxObjects ∧ id - serverIdStart ≤ m.server.length

instance {α : Type} (m : WlMap α) (id : Nat) : Decidable (m.Fits id) := by
  unfold WlMap.Fits
  infer_instance

namespace WlMap

variable {α : Type} {m m' : WlMap α} {id : Nat}

theorem insertEntry_of_le {entries : List (Option α)} (hmax : id ≤ maxObjects)
    (hle : id ≤ entries.length) (data : Option α) :
    ∃ entries', insertEntry entries id data = some entries' := by
  unfold insertEntry
  rw [if_neg (Nat.not_lt.mpr hmax), if_neg (Nat.not_lt.mpr hle)]
  split
  · exact ⟨_, rfl⟩
  · exact ⟨_, rfl⟩

theorem length_insertEntry {entries entries' : List (Option α)} {data : Option α}
    (h : insertEntry entries id data = some entries') : entries.length ≤ entries'.length := by
  unfold insertEntry at h
  split_ifs at h <;> cases h <;> simp

theorem Fits.insertAt (h : m.Fits id) (data : Option α) : ∃ m', m.insertAt id data = some m' := by
  unfold Fits at h
  unfold WlMap.insertAt
  split_ifs at h ⊢ with hclient
  · obtain ⟨entries, hentries⟩ := insertEntry_of_le h.1 h.2 data
    exact ⟨_, by rw [hentries]; rfl⟩
  · obtain ⟨entries, hentries⟩ := insertEntry_of_le h.1 h.2 data
    exact ⟨_, by rw [hentries]; rfl⟩

/-- There is still room in a map that has not become shorter. -/
theorem Fits.mono (h : m.Fits id) (hclient : m.client.length ≤ m'.client.length)
    (hserver : m.server.length ≤ m'.server.length) : m'.Fits id := by
  unfold Fits at h ⊢
  split_ifs at h ⊢ with hid
  · exact ⟨h.1, Nat.le_trans h.2 hclient⟩
  · exact ⟨h.1, Nat.le_trans h.2 hserver⟩

theorem Fits.after_insertAt {j : Nat} {data : Option α} (h : m.Fits j)
    (hinsert : m.insertAt id data = some m') : m'.Fits j := by
  unfold WlMap.insertAt at hinsert
  split_ifs at hinsert with hid
  · obtain ⟨entries, hentries, rfl⟩ := Option.map_eq_some_iff.mp hinsert
    exact h.mono (length_insertEntry hentries) (Nat.le_refl _)
  · obtain ⟨entries, hentries, rfl⟩ := Option.map_eq_some_iff.mp hinsert
    exact h.mono (Nat.le_refl _) (length_insertEntry hentries)

theorem Fits.reserveNew {j : Nat} (h : m.Fits j) : (m.reserveNew id).Fits j := by
  unfold WlMap.reserveNew
  split_ifs
  · exact h
  · exact h
  · exact h.mono (Nat.le_refl _) (by simp)
  · exact h

theorem Fits.reserveAll {ids : List Nat} {j : Nat} (h : m.Fits j) :
    (ids.foldl WlMap.reserveNew m).Fits j := by
  induction ids generalizing m with
  | nil => exact h
  | cons id ids ih => exact ih h.reserveNew

end WlMap

/-- `wl_map_insert_at` for these ids. -/
def WlMap.insertAll {α : Type} (m : WlMap α) (data : Option α) (ids : List Nat) : WlMap α :=
  ids.foldl (fun m id => (m.insertAt id data).getD m) m

namespace Proxy

open Stratus.Lib Stratus.Capture.Forward

variable {δ : Type}

/-- `MAX_SESSIONS`. -/
def maxSessions : Nat := 8

/-- A `struct proxy_session` with its connections, and what has happened on these. -/
structure Client (δ : Type) where
  state : Forward.State δ
  log : List Forward.Event

/-- Why `proxy_run` goes no further: `proxy_handle_data` fails for a session, the assertion in
`proxy_create_session` does, or what a new session needs is not there. -/
inductive Stop where
  | session (reason : Forward.Stop)
  | tooManySessions
  | noResources
deriving DecidableEq

structure Run (δ : Type) where
  sessions : List (Option (Client δ))
  nextSessionId : Nat
  stopped : Option Stop

/-- `ready` says whether memory, sockets and the compositor are there for a session. -/
inductive RunEvent where
  | connect (ready : Bool)
  | disconnect (idx : Nat)
  | session (idx : Nat) (event : Forward.Event)

namespace Run

def start (δ : Type) : Run δ where
  sessions := List.replicate maxSessions none
  nextSessionId := 1
  stopped := none

/-- The first entry of the array that is free. -/
def freeIndex (s : Run δ) : Option Nat := s.sessions.findIdx? Option.isNone

def client (s : Run δ) (idx : Nat) : Option (Client δ) := s.sessions[idx]?.join

def proxyCreateSession (s : Run δ) (ready : Bool) : Run δ :=
  match s.freeIndex with
  | none => { s with stopped := some .tooManySessions }
  | some idx =>
      if ready then
        { s with
          sessions := s.sessions.set idx (some ⟨.start δ, []⟩)
          nextSessionId := s.nextSessionId + 1 }
      else { s with stopped := some .noResources }

/-- None of these sessions is in the loop of `proxy_handle_data`. -/
def idle (sessions : List (Option (Client δ))) : Bool :=
  sessions.all fun entry => entry.all fun c => c.state.pc = .ready

/-- After a step of one session. -/
def update (s : Run δ) (idx : Nat) (c : Client δ) : Run δ :=
  match c.state.pc with
  | .stopped reason => { s with stopped := some (.session reason) }
  | _ => { s with sessions := s.sessions.set idx (some c) }

/-- One event of the loop of `proxy_run`, or a turn of the loop of `proxy_handle_data` that it has
called. -/
def next (onMessage : OnMessage δ) (s : Run δ) (event : RunEvent) : Option (Run δ) :=
  if s.stopped.isSome then none
  else
    match event with
    | .connect ready => if idle s.sessions then some (s.proxyCreateSession ready) else none
    | .disconnect idx =>
        if idle s.sessions then
          (s.client idx).map fun _ => { s with sessions := s.sessions.set idx none }
        else none
    | .session idx event =>
        if idle (s.sessions.eraseIdx idx) then
          (s.client idx).bind fun c =>
            (c.state.next onMessage event).map fun t => s.update idx ⟨t, c.log ++ [event]⟩
        else none

def system (onMessage : OnMessage δ) (allowed : Run δ → RunEvent → Prop) :
    Labelled (Run δ) RunEvent where
  init s := s = .start δ
  step s event t := allowed s event ∧ s.next onMessage event = some t

end Run

/-! ### Input that the proxy survives -/

/-- The message at the front of a connection, when its object and its opcode are known and its
arguments are those of the signature. -/
def Session.message (s : Session δ) (src : Side) (received : List UInt8) (fdsIn : List Int) :
    Option ProxyMessage := do
  let header := parseHeader received
  let interface ← s.objTypes.lookup header.id
  let message ← (interface.messages src)[header.opcode]?
  match Wire.wlConnectionDemarshal header.size (signature message) received fdsIn with
  | .ok (closure, _) => return ⟨src, interface, message, closure⟩
  | .error _ => none

namespace Closure

def isBind (c : Closure) : Bool := c.interface.name = "wl_registry" && c.message.name = "bind"

/-- The ids that are entered in the maps. -/
def createdIds (c : Closure) : List Nat :=
  if c.isBind then [c.idArg 3] else newIds c.message.signature c.args

/-- The interface they are entered with. -/
def createdInterface (c : Closure) : Option Interface :=
  if c.isBind then proxyLookupInterface (c.stringArg 1) else c.message.types.headD none

end Closure

/-- The maps when the handler is called. -/
def Session.created (s : Session δ) (c : Closure) : Session δ where
  objTypes := ((newIds c.message.signature c.args).foldl WlMap.reserveNew s.objTypes).insertAll
    c.createdInterface c.createdIds
  objData := s.objData.insertAll none c.createdIds

/-- `wl_closure_send` does not find the closure too large. -/
def CanSend (x : Sending) : Prop :=
  (Wire.wlClosureSend (signature x.message) x.closure).isSome = true

/-- The handler has no error, drops no message that creates an object, and what it sends and
forwards can be sent. -/
def Accepts (onMessage : OnMessage δ) (s : Session δ) (msg : ProxyMessage) : Prop :=
  (∀ x ∈ (onMessage s msg).emitted, CanSend x) ∧
    match (onMessage s msg).action with
    | .err => False
    | .drop => msg.parsed.createdIds = []
    | .forward => CanSend ⟨msg.src.other, msg.message, (onMessage s msg).closure⟩

/-- The object, the opcode and the name of a bound interface are known, the new ids are next in
turn, and the handler accepts the message. -/
def Accepted (onMessage : OnMessage δ) (s : Session δ) (src : Side) (received : List UInt8)
    (fdsIn : List Int) : Prop :=
  ∃ msg ∈ s.message src received fdsIn, msg.UnknownGlobal ∨
    ((msg.parsed.isBind = true → (proxyLookupInterface (msg.parsed.stringArg 1)).isSome = true) ∧
      (∀ id ∈ msg.parsed.createdIds, s.objTypes.Fits id ∧ s.objData.Fits id) ∧
      Accepts onMessage (s.created msg.parsed) msg)

/-- The calls of a turn succeed, and the message that it is about is accepted. -/
def AcceptedTurn (onMessage : OnMessage δ) (s : Forward.State δ) (ok : Bool) : Forward.Pc → Prop
  | .loop src len =>
      ok = true ∧ (8 ≤ sizeT len → Accepted onMessage s.session src (s.front src) (s.fdsIn src))
  | .ready => True
  | .stopped _ => True

/-- When the loop of `proxy_handle_data` goes on, the next message has arrived as a whole and is
accepted. -/
def AcceptedEvent (onMessage : OnMessage δ) (s : Forward.State δ) (event : Forward.Event) : Prop :=
  s.Whole event ∧
    match event with
    | .turn ok => AcceptedTurn onMessage s ok s.pc
    | .data _ _ _ _ => True

/-- There is room for a new client, and for what it needs; and what a session does is accepted. -/
def Harmless (onMessage : OnMessage δ) (s : Run δ) : RunEvent → Prop
  | .connect ready => ready = true ∧ s.freeIndex.isSome = true
  | .disconnect _ => True
  | .session idx event => ∀ c ∈ s.client idx, AcceptedEvent onMessage c.state event

section Decide

instance (x : Sending) : Decidable (CanSend x) := by
  unfold CanSend
  infer_instance

instance (onMessage : OnMessage δ) (s : Session δ) (msg : ProxyMessage) :
    Decidable (Accepts onMessage s msg) := by
  unfold Accepts
  cases (onMessage s msg).action <;> infer_instance

instance (onMessage : OnMessage δ) (s : Session δ) (src : Side) (received : List UInt8)
    (fdsIn : List Int) : Decidable (Accepted onMessage s src received fdsIn) := by
  unfold Accepted
  infer_instance

instance (onMessage : OnMessage δ) (s : Forward.State δ) (ok : Bool) :
    (pc : Forward.Pc) → Decidable (AcceptedTurn onMessage s ok pc)
  | .loop _ _ => inferInstanceAs (Decidable (_ ∧ _))
  | .ready => isTrue trivial
  | .stopped _ => isTrue trivial

instance (onMessage : OnMessage δ) (s : Forward.State δ) :
    (event : Forward.Event) → Decidable (AcceptedEvent onMessage s event)
  | .turn _ => inferInstanceAs (Decidable (_ ∧ AcceptedTurn _ _ _ _))
  | .data _ _ _ _ => inferInstanceAs (Decidable (_ ∧ True))

instance (onMessage : OnMessage δ) (s : Run δ) (event : RunEvent) :
    Decidable (Harmless onMessage s event) := by
  cases event <;> unfold Harmless <;> infer_instance

end Decide

/-! ### A message -/

section Message

variable {onMessage : OnMessage δ} {s : Session δ} {closure : Closure} {ids : List Nat}
  {src : Side} {received : List UInt8} {fdsIn : List Int} {msg : ProxyMessage}

theorem createObject_of_fits {id : Nat} (interface : Option Interface)
    (h : s.objTypes.Fits id ∧ s.objData.Fits id) :
    proxyCreateObject s id interface =
        .ok ⟨s.objTypes.insertAll interface [id], s.objData.insertAll none [id]⟩ ∧
      ∀ j, s.objTypes.Fits j ∧ s.objData.Fits j →
        (s.objTypes.insertAll interface [id]).Fits j ∧ (s.objData.insertAll none [id]).Fits j := by
  obtain ⟨types, htypes⟩ := h.1.insertAt interface
  obtain ⟨data, hdata⟩ := h.2.insertAt none
  simp only [proxyCreateObject, WlMap.insertAll, List.foldl_cons, List.foldl_nil, htypes, hdata,
    Option.getD_some, true_and]
  exact fun j hj => ⟨hj.1.after_insertAt htypes, hj.2.after_insertAt hdata⟩

theorem createObjects_of_fits (interface : Option Interface)
    (h : ∀ id ∈ ids, s.objTypes.Fits id ∧ s.objData.Fits id) :
    createObjects interface ids s =
      .ok ⟨s.objTypes.insertAll interface ids, s.objData.insertAll none ids⟩ := by
  induction ids generalizing s with
  | nil => rfl
  | cons id ids ih =>
      obtain ⟨hcreate, hfits⟩ := createObject_of_fits interface (h id (.head _))
      simp only [createObjects, bind, Except.bind, hcreate]
      exact ih fun j hj => hfits j (h j (.tail _ hj))

theorem registerObjects_of_fits
    (hname : closure.isBind = true → (proxyLookupInterface (closure.stringArg 1)).isSome = true)
    (h : ∀ id ∈ closure.createdIds, s.objTypes.Fits id ∧ s.objData.Fits id) :
    registerObjects s closure =
      .ok (⟨s.objTypes.insertAll closure.createdInterface closure.createdIds,
        s.objData.insertAll none closure.createdIds⟩, !closure.createdIds.isEmpty) := by
  unfold registerObjects
  by_cases hbind : closure.isBind = true
  · have hids : closure.createdIds = [closure.idArg 3] := if_pos hbind
    rw [hids] at h ⊢
    obtain ⟨interface, hinterface⟩ := Option.isSome_iff_exists.mp (hname hbind)
    have hcreated : closure.createdInterface = some interface := (if_pos hbind).trans hinterface
    obtain ⟨hcreate, -⟩ := createObject_of_fits (some interface) (h _ (.head _))
    rw [if_pos (by simpa [Closure.isBind] using hbind), hinterface, hcreated]
    simp only [bind, Except.bind, hcreate, pure, Except.pure]
    rfl
  · have hids : closure.createdIds = newIds closure.message.signature closure.args := if_neg hbind
    have hcreated : closure.createdInterface = closure.message.types.headD none := if_neg hbind
    rw [hids] at h ⊢
    rw [if_neg (by simpa [Closure.isBind] using hbind), hcreated]
    simp only [bind, Except.bind, createObjects_of_fits _ h, pure, Except.pure]

/-- Reserving the ids does not take the room for them. -/
theorem registerObjects_reserved
    (hname : closure.isBind = true → (proxyLookupInterface (closure.stringArg 1)).isSome = true)
    (h : ∀ id ∈ closure.createdIds, s.objTypes.Fits id ∧ s.objData.Fits id) :
    registerObjects { s with objTypes :=
      (newIds closure.message.signature closure.args).foldl WlMap.reserveNew s.objTypes } closure =
        .ok (s.created closure, !closure.createdIds.isEmpty) :=
  registerObjects_of_fits hname fun id hid => ⟨(h id hid).1.reserveAll, (h id hid).2⟩

theorem finish_of_accepts (h : Accepts onMessage s msg) (fdsIn : List Int) :
    ∃ handled, finish onMessage s msg fdsIn (!msg.parsed.createdIds.isEmpty) = .ok handled ∧
      ∀ x ∈ handled.sends, CanSend x := by
  obtain ⟨hemitted, haction⟩ := h
  unfold finish
  cases hcase : (onMessage s msg).action with
  | err =>
      rw [hcase] at haction
      exact haction.elim
  | drop =>
      rw [hcase] at haction
      dsimp only
      rw [hcase, show msg.parsed.createdIds = [] from haction]
      exact ⟨_, rfl, hemitted⟩
  | forward =>
      rw [hcase] at haction
      dsimp only
      rw [hcase]
      refine ⟨_, rfl, fun x hx => ?_⟩
      rcases List.mem_append.mp hx with hx | hx
      · exact hemitted x hx
      · rw [List.mem_singleton.mp hx]
        exact haction

theorem Accepted.handled (h : Accepted onMessage s src received fdsIn) :
    ∃ handled, Forward.proxyHandleMessage onMessage s src received fdsIn = .ok handled ∧
      ∀ x ∈ handled.sends, CanSend x := by
  obtain ⟨msg, hmsg, hrest⟩ := h
  obtain ⟨interface, hinterface, hmsg⟩ := Option.bind_eq_some_iff.mp hmsg
  obtain ⟨message, hmessage, hmsg⟩ := Option.bind_eq_some_iff.mp hmsg
  unfold Forward.proxyHandleMessage
  simp only [hinterface, hmessage]
  cases hread : Wire.wlConnectionDemarshal (parseHeader received).size (signature message) received
    fdsIn with
  | error e =>
      simp only [hread] at hmsg
      cases hmsg
  | ok result =>
      simp only [hread] at hmsg
      cases hmsg
      dsimp only
      split
      · exact ⟨_, rfl, nofun⟩
      · next hunknown =>
        obtain ⟨hname, hfits, haccepts⟩ := hrest.resolve_left hunknown
        have hregister := registerObjects_reserved hname hfits
        split
        · next hfailure => cases hregister.symm.trans hfailure
        · next hsession =>
          cases hregister.symm.trans hsession
          exact finish_of_accepts haccepts result.2

theorem sendAll_of_canSend {sends : List Sending} (h : ∀ x ∈ sends, CanSend x)
    (out : Side → Queue) : ∃ out', sends.foldlM send out = some out' := by
  induction sends generalizing out with
  | nil => exact ⟨out, rfl⟩
  | cons x sends ih =>
      obtain ⟨⟨bytes, fds⟩, hx⟩ := Option.isSome_iff_exists.mp (h x (.head _))
      obtain ⟨out', hout'⟩ := ih (fun y hy => h y (.tail _ hy))
        (Function.update out x.dst (out x.dst ++ ⟨bytes, fds⟩))
      refine ⟨out', ?_⟩
      simp only [List.foldlM_cons, send, hx, bind, Option.bind]
      exact hout'

end Message

/-! ### Every run -/

/-- A session goes on after what is accepted. -/
theorem AcceptedEvent.served {onMessage : OnMessage δ} {s t : Forward.State δ}
    {event : Forward.Event} (h : AcceptedEvent onMessage s event)
    (hnext : s.next onMessage event = some t) (reason : Forward.Stop) : t.pc ≠ .stopped reason := by
  obtain ⟨-, haccepted⟩ := h
  unfold Forward.State.next at hnext
  split at hnext
  · cases hnext
    exact nofun
  · next hpc =>
    cases hnext
    simp only [hpc, AcceptedTurn] at haccepted
    obtain ⟨rfl, haccepted⟩ := haccepted
    unfold Forward.State.turn
    split
    · next hlen =>
      obtain ⟨handled, hhandled, hsends⟩ := (haccepted hlen).handled
      obtain ⟨out, hout⟩ := sendAll_of_canSend hsends s.out
      simp only [if_true, Forward.State.handle, hhandled, hout]
      exact nofun
    · exact nofun
  · cases hnext

namespace Run

variable {onMessage : OnMessage δ} {s t : Run δ}

/-- A session is what its own events have made of it, and what it has heard is what its own peers
have sent. -/
structure Own (onMessage : OnMessage δ) (c : Client δ) : Prop where
  replay : c.log.foldlM (Forward.State.next onMessage) (.start δ) = some c.state
  framed : Forward.Framed c.state

/-- The loop goes on, and no session has an effect on another one. -/
structure Undisturbed (onMessage : OnMessage δ) (s : Run δ) : Prop where
  running : s.stopped = none
  own : ∀ idx c, s.client idx = some c → Own onMessage c

theorem own_start (onMessage : OnMessage δ) : Own onMessage ⟨.start δ, []⟩ :=
  ⟨rfl, framed_start δ⟩

theorem Own.next {c : Client δ} (h : Own onMessage c) {event : Forward.Event} {t : Forward.State δ}
    (haccepted : AcceptedEvent onMessage c.state event)
    (hnext : c.state.next onMessage event = some t) : Own onMessage ⟨t, c.log ++ [event]⟩ := by
  refine ⟨?_, h.framed.next haccepted.1 hnext⟩
  simp only [List.foldlM_append, h.replay, bind, Option.bind, List.foldlM_cons, List.foldlM_nil, hnext]
  rfl

theorem client_set {sessions : List (Option (Client δ))} {idx j : Nat} {entry : Option (Client δ)}
    {c : Client δ} (h : (sessions.set idx entry)[j]?.join = some c) :
    entry = some c ∨ sessions[j]?.join = some c := by
  rw [List.getElem?_set] at h
  split at h
  · split at h
    · exact .inl h
    · cases h
  · exact .inr h

theorem Undisturbed.set (h : Undisturbed onMessage s) {idx : Nat} {entry : Option (Client δ)}
    (hsessions : t.sessions = s.sessions.set idx entry) (hrunning : t.stopped = none)
    (hentry : ∀ c, entry = some c → Own onMessage c) : Undisturbed onMessage t := by
  refine ⟨hrunning, fun j c hc => ?_⟩
  rw [client, hsessions] at hc
  rcases client_set hc with hnew | hold
  · exact hentry c hnew
  · exact h.own j c hold

theorem update_eq {c : Client δ} (hserved : ∀ reason, c.state.pc ≠ .stopped reason) (idx : Nat) :
    s.update idx c = { s with sessions := s.sessions.set idx (some c) } := by
  unfold update
  split
  · next reason hpc => exact absurd hpc (hserved reason)
  · rfl

theorem Undisturbed.next (h : Undisturbed onMessage s) {event : RunEvent}
    (hharmless : Harmless onMessage s event) (hnext : s.next onMessage event = some t) :
    Undisturbed onMessage t := by
  have hrunning : ¬ s.stopped.isSome = true := by
    rw [h.running]
    exact nofun
  unfold Run.next at hnext
  rw [if_neg hrunning] at hnext
  cases event with
  | connect ready =>
      obtain ⟨rfl, hfree⟩ := hharmless
      obtain ⟨idx, hidx⟩ := Option.isSome_iff_exists.mp hfree
      obtain ⟨-, hnext⟩ := Option.ite_none_right_eq_some.mp hnext
      simp only [proxyCreateSession, hidx, if_true, Option.some.injEq] at hnext
      subst hnext
      refine h.set rfl h.running fun c hc => ?_
      cases hc
      exact own_start onMessage
  | disconnect idx =>
      obtain ⟨-, hnext⟩ := Option.ite_none_right_eq_some.mp hnext
      obtain ⟨c, hc, rfl⟩ := Option.map_eq_some_iff.mp hnext
      exact h.set rfl h.running nofun
  | session idx event =>
      obtain ⟨-, hnext⟩ := Option.ite_none_right_eq_some.mp hnext
      obtain ⟨c, hc, hstep⟩ := Option.bind_eq_some_iff.mp hnext
      obtain ⟨state, hstate, rfl⟩ := Option.map_eq_some_iff.mp hstep
      have haccepted := hharmless c hc
      have hown := (h.own idx c hc).next haccepted hstate
      rw [update_eq (haccepted.served hstate)]
      refine h.set rfl h.running fun c' hc' => ?_
      cases hc'
      exact hown

end Run

/-- A session receives this, and deals with so many messages. -/
def received (idx : Nat) (queue : Queue) (messages : Nat) : List RunEvent :=
  .session idx (.data .client queue false fun _ => 0) ::
    List.replicate (messages + 1) (.session idx (.turn true))

end Proxy

end Stratus.Capture
