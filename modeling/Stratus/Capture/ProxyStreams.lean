import Stratus.Capture.ProxyForward
import Stratus.Capture.ProxyFraming
import Stratus.Capture.ProxyTable

/-! What a peer reads from the proxy is what the other peer wrote, in the same order and with the
same file descriptors, except for what a handler changed. -/
namespace Stratus.Capture.Forward

open Stratus.Lib Stratus.Capture.Proxy

/-! ## Messages as fields of a stream -/

theorem parseHeader_size_lt (bytes : List UInt8) : (parseHeader bytes).size < 2 ^ 16 := by
  have hlt := ofLittle_lt ((bytes.drop 4).take 4)
  have hle : 256 ^ ((bytes.drop 4).take 4).length ≤ 256 ^ 4 :=
    Nat.pow_le_pow_right (by decide) (by rw [List.length_take]; exact Nat.min_le_left _ _)
  show ofLittle ((bytes.drop 4).take 4) / 2 ^ 16 < 2 ^ 16
  omega

/-- The bytes of a message, and its file descriptors. -/
def written (message : Signed) : Queue :=
  ⟨wordBytes (message.2.buffer message.1), message.2.fds message.1⟩

theorem readMessage_written {message : Signed} (h : message.2.Sendable message.1) (later : Queue) :
    readMessage message.1 (written message ++ later) = .ok (message.2, later) := by
  have hheader := Wire.parseHeader_buffer h later.bytes
  have hread := Wire.wlConnectionDemarshal_buffer h later.bytes later.fds
  simp only [readMessage, Queue.bytes_append, Queue.fds_append, written, hheader, hread, List.drop_left]

def messageCodec : Codec (List Char) Wire.Closure Queue Wire.DemarshalError where
  valid signature closure := closure.Sendable signature
  write signature closure later := written (signature, closure) ++ later
  read := readMessage
  read_write h later := readMessage_written h later

/-- The messages have been put into the connection one after the other. -/
structure Written (queue : Queue) (messages : List Signed) : Prop where
  sendable : ∀ message ∈ messages, message.2.Sendable message.1
  bytes : queue.bytes = (messages.map fun message => (written message).bytes).flatten
  fds : queue.fds = (messages.map fun message => (written message).fds).flatten

theorem writeFields_of_written {queue : Queue} {messages : List Signed} (h : Written queue messages)
    (later : Queue) : messageCodec.writeFields messages later = queue ++ later := by
  obtain ⟨-, hbytes, hfds⟩ := h
  obtain ⟨bytes, fds⟩ := queue
  subst hbytes hfds
  induction messages with
  | nil => rfl
  | cons message messages ih =>
      show written message ++ messageCodec.writeFields messages later = _
      rw [ih]
      apply Queue.ext
      · simp only [Queue.bytes_append, List.map_cons, List.flatten_cons, List.append_assoc]
      · simp only [Queue.fds_append, List.map_cons, List.flatten_cons, List.append_assoc]

theorem Written.reads {queue : Queue} {messages : List Signed} (h : Written queue messages) :
    Reads queue messages := by
  intro later
  have hvalid : messageCodec.Valid (messages.map Prod.fst) (messages.map Prod.snd) := by
    rw [Codec.Valid, List.forall₂_map_left_iff, List.forall₂_map_right_iff, List.forall₂_same]
    exact h.sendable
  have hzip : (messages.map Prod.fst).zip (messages.map Prod.snd) = messages := by
    rw [← List.unzip_fst, ← List.unzip_snd, List.zip_unzip]
  have hread := Codec.readFields_writeFields hvalid later
  rwa [hzip, writeFields_of_written h] at hread

theorem written_empty : Written .empty [] :=
  ⟨fun _ hmem => absurd hmem List.not_mem_nil, rfl, rfl⟩

theorem Written.snoc {queue : Queue} {messages : List Signed} (h : Written queue messages)
    (message : Signed) (hmessage : message.2.Sendable message.1) :
    Written (queue ++ written message) (messages ++ [message]) where
  sendable := by
    intro x hmem
    rcases List.mem_append.mp hmem with hmem | hmem
    · exact h.sendable x hmem
    · rw [List.mem_singleton.mp hmem]
      exact hmessage
  bytes := by
    rw [Queue.bytes_append, h.bytes, List.map_append, List.flatten_append, List.map_singleton,
      List.flatten_singleton]
  fds := by
    rw [Queue.fds_append, h.fds, List.map_append, List.flatten_append, List.map_singleton,
      List.flatten_singleton]

/-! ## One message -/

section Handle

variable {δ : Type} {onMessage : OnMessage δ} {session : Session δ} {src : Side} {handled : Handled δ}

/-- What is sent and what is closed of a message. -/
inductive Sends (onMessage : OnMessage δ) (msg : ProxyMessage) : List Sending → List Int → Prop
  | unknown (h : msg.UnknownGlobal) : Sends onMessage msg [] msg.fds
  | dropped (session : Session δ) (h : ¬ msg.UnknownGlobal)
      (haction : (onMessage session msg).action = .drop) :
      Sends onMessage msg (onMessage session msg).emitted
        ((onMessage session msg).closure.fds (signature msg.message))
  | forwarded (session : Session δ) (h : ¬ msg.UnknownGlobal)
      (haction : (onMessage session msg).action = .forward) :
      Sends onMessage msg ((onMessage session msg).emitted ++
        [⟨msg.src.other, msg.message, (onMessage session msg).closure⟩]) []

theorem finish_sends {msg : ProxyMessage} {fdsIn : List Int} {newObjects : Bool}
    (hunknown : ¬ msg.UnknownGlobal)
    (h : finish onMessage session msg fdsIn newObjects = .ok handled) :
    handled.msg = msg ∧ handled.fdsIn = fdsIn ∧
      Sends onMessage msg handled.sends handled.closed := by
  unfold finish at h
  cases haction : (onMessage session msg).action with
  | err =>
      simp only [haction] at h
      cases h
  | drop =>
      simp only [haction] at h
      split at h
      · cases h
      · cases h
        exact ⟨rfl, rfl, .dropped session hunknown haction⟩
  | forward =>
      simp only [haction] at h
      cases h
      exact ⟨rfl, rfl, .forwarded session hunknown haction⟩

/-- A message is handled by reading it off the connection and doing with it what the handler
says. -/
theorem proxyHandleMessage_spec {received : List UInt8} {fdsIn : List Int}
    (h : proxyHandleMessage onMessage session src received fdsIn = .ok handled) :
    (handled.msg.src = src ∧ handled.msg.message ∈ handled.msg.interface.messages src) ∧
      readMessage (signature handled.msg.message) ⟨received, fdsIn⟩ =
        .ok (handled.msg.closure, ⟨received.drop (parseHeader received).size, handled.fdsIn⟩) ∧
      Sends onMessage handled.msg handled.sends handled.closed := by
  unfold proxyHandleMessage at h
  dsimp only at h
  split at h
  · cases h
  · split at h
    · cases h
    · next message hmessage =>
      have hmem : message ∈ _ := List.mem_of_getElem? hmessage
      split at h
      · cases h
      · next hread =>
        split at h
        · next hunknown =>
          cases h
          refine ⟨⟨rfl, hmem⟩, ?_, .unknown hunknown⟩
          simp only [readMessage, hread]
        · next hunknown =>
          split at h
          · cases h
          · obtain ⟨hmsg, hfds, hsends⟩ := finish_sends hunknown h
            rw [hmsg, hfds]
            refine ⟨⟨rfl, hmem⟩, ?_, hsends⟩
            simp only [readMessage, hread]

/-! The table of the session sees the arguments only. -/

theorem accepts_argOf {arg : ArgDecl} {value : Wire.Argument}
    (h : Wire.Argument.Valid (details arg) value) : arg.accepts (argOf arg value) = true := by
  cases arg with
  | string nullable =>
      cases h with
      | nullString => rfl
      | string hlength => exact Bool.or_true nullable
  | object interface nullable =>
      cases h with
      | object hnull =>
          next n =>
          show (nullable || n.toNat != 0) = true
          by_cases hzero : n = 0
          · rw [hnull hzero, Bool.true_or]
          · have hne : n.toNat ≠ 0 := fun heq => hzero (UInt32.toNat_inj.mp heq)
            rw [bne_iff_ne.mpr hne, Bool.or_true]
  | newId interface =>
      cases h with
      | newId hnull => exact bne_iff_ne.mpr fun heq => hnull (UInt32.toNat_inj.mp heq)
  | int | uint | fixed | array | fd => rfl

theorem accepts_args {args : List ArgDecl} {values : List Wire.Argument}
    (h : Wire.codec.Valid (args.map details) values) :
    (List.zipWith argOf args values).length = args.length ∧
      ((args.zip (List.zipWith argOf args values)).all fun pair => pair.1.accepts pair.2) = true := by
  rw [Codec.Valid, List.forall₂_map_left_iff] at h
  induction h with
  | nil => exact ⟨rfl, rfl⟩
  | cons hvalid _ ih =>
      obtain ⟨hlength, hall⟩ := ih
      refine ⟨by rw [List.zipWith_cons_cons, List.length_cons, hlength, List.length_cons], ?_⟩
      rw [List.zipWith_cons_cons, List.zip_cons_cons, List.all_cons, hall, Bool.and_true]
      exact accepts_argOf hvalid

theorem dispatch_finish {msg : ProxyMessage} {fdsIn : List Int} {newObjects : Bool}
    (h : finish onMessage session msg fdsIn newObjects = .ok handled) :
    ∃ handler, dispatch handler session msg.parsed newObjects = .ok handled.session := by
  refine ⟨⟨fun _ _ => ((onMessage session msg).data, (onMessage session msg).action), fun _ => true⟩, ?_⟩
  unfold finish at h
  unfold dispatch
  cases haction : (onMessage session msg).action with
  | err =>
      simp only [haction] at h
      cases h
  | drop =>
      simp only [haction] at h ⊢
      split at h
      · cases h
      · next hnew =>
        cases h
        exact if_neg hnew
  | forward =>
      simp only [haction] at h ⊢
      cases h
      rfl

/-- What a message does to the table of objects depends on its arguments alone, not on the bytes
they came in. -/
theorem proxyHandleMessage_refines {received : List UInt8} {fdsIn : List Int}
    (h : proxyHandleMessage onMessage session src received fdsIn = .ok handled) :
    ∃ handler, Proxy.proxyHandleMessage handler session
      ⟨src, (parseHeader received).id, (parseHeader received).opcode, handled.msg.args⟩ =
        .ok handled.session := by
  unfold proxyHandleMessage at h
  dsimp only at h
  split at h
  · cases h
  · next interface hinterface =>
    split at h
    · cases h
    · next message hmessage =>
      split at h
      · cases h
      · next closure fds hread =>
        obtain ⟨hsendable, -, -⟩ := Wire.sendable_of_demarshal (parseHeader_size_lt received) hread
        have hvalid := hsendable.args
        rw [arguments_signature] at hvalid
        have hdemarshal : demarshal session.objTypes message
            (ProxyMessage.mk src interface message closure).args = .ok _ := if_pos (accepts_args hvalid)
        split at h
        · next hunknown =>
          cases h
          refine ⟨⟨fun data _ => (data, .forward), fun _ => true⟩, ?_⟩
          simp only [Proxy.proxyHandleMessage, hinterface, hmessage, hdemarshal]
          exact if_pos hunknown
        · next hunknown =>
          split at h
          · cases h
          · next registered newObjects hregister =>
            obtain ⟨handler, hdispatch⟩ := dispatch_finish h
            have hmsg : handled.msg = ⟨src, interface, message, closure⟩ := (finish_sends hunknown h).1
            refine ⟨handler, ?_⟩
            simp only [Proxy.proxyHandleMessage, hinterface, hmessage, hmsg, hdemarshal]
            refine (if_neg hunknown).trans ?_
            refine (congrArg (Except.bind · fun x => dispatch handler x.1 _ x.2) hregister).trans ?_
            exact hdispatch

theorem proxyHandleMessage_refines_getRegistry :
    ∃ handled handler, Proxy.proxyHandleMessage handler (Session.create Unit)
      ⟨.client, 1, 1, [.newId 2]⟩ = .ok handled := by
  have hhandled : proxyHandleMessage (fun session msg =>
      ⟨session.objData, [], msg.closure, .forward⟩) (Session.create Unit) .client
        [1, 0, 0, 0, 1, 0, 12, 0, 2, 0, 0, 0] [] = .ok _ := rfl
  exact ⟨_, proxyHandleMessage_refines hhandled⟩

theorem sendable_of_readMessage {signature : List Char} {closure : Wire.Closure} {queue rest : Queue}
    (h : readMessage signature queue = .ok (closure, rest)) :
    closure.Sendable signature ∧ closure.fds signature ++ rest.fds = queue.fds := by
  unfold readMessage at h
  dsimp only at h
  split at h
  · cases h
  · next hread =>
    cases h
    obtain ⟨hsendable, -, hfds⟩ :=
      Wire.sendable_of_demarshal (parseHeader_size_lt queue.bytes) hread
    exact ⟨hsendable, hfds⟩

end Handle

/-! ## What is sent -/

/-- The closures that the handler sends are such as the signatures allow. -/
def Sound {δ : Type} (onMessage : OnMessage δ) : Prop :=
  ∀ session msg, msg.message ∈ msg.interface.messages msg.src →
    msg.closure.Sendable (signature msg.message) →
      (onMessage session msg).closure.Sendable (signature msg.message) ∧
        ∀ x ∈ (onMessage session msg).emitted, x.closure.Sendable (signature x.message)

/-- Each message is forwarded as it is. -/
def Transparent {δ : Type} (onMessage : OnMessage δ) : Prop :=
  ∀ session msg, (onMessage session msg).emitted = [] ∧
    (onMessage session msg).closure = msg.closure ∧ (onMessage session msg).action = .forward

theorem Transparent.sound {δ : Type} {onMessage : OnMessage δ} (h : Transparent onMessage) :
    Sound onMessage := by
  intro session msg _ hsendable
  obtain ⟨hemitted, hclosure, -⟩ := h session msg
  rw [hemitted, hclosure]
  exact ⟨hsendable, fun x hmem => absurd hmem List.not_mem_nil⟩

def forwardAll {δ : Type} : OnMessage δ := fun session msg =>
  ⟨session.objData, [], msg.closure, .forward⟩

theorem forwardAll_transparent {δ : Type} : Transparent (forwardAll : OnMessage δ) :=
  fun _ _ => ⟨rfl, rfl, rfl⟩

/-- What the messages to a peer are. -/
def signedTo (dst : Side) (sent : List Sending) : List Signed :=
  (sent.filter fun x => x.dst = dst).map Sending.signed

/-- What the connections have been given are the messages sent to them. -/
def AllWritten (out : Side → Queue) (sent : List Sending) : Prop :=
  ∀ dst, Written (out dst) (signedTo dst sent)

theorem AllWritten.send {out out' : Side → Queue} {sent : List Sending} {x : Sending}
    (h : AllWritten out sent) (hx : x.closure.Sendable (signature x.message)) (hsend : send out x = some out') :
    AllWritten out' (sent ++ [x]) := by
  rw [Forward.send, Wire.wlClosureSend_eq hx] at hsend
  obtain rfl := Option.some.inj hsend
  intro dst
  rw [signedTo, List.filter_append, List.map_append]
  by_cases hdst : x.dst = dst
  · rw [List.filter_cons_of_pos (by simpa using hdst), List.filter_nil, ← hdst, Function.update_self]
    exact (h x.dst).snoc x.signed hx
  · rw [List.filter_cons_of_neg (by simpa using hdst), List.filter_nil, List.map_nil,
      List.append_nil, Function.update_of_ne (Ne.symm hdst)]
    exact h dst

theorem AllWritten.sendAll {sends sent : List Sending} {out out' : Side → Queue}
    (h : AllWritten out sent) (hsends : ∀ x ∈ sends, x.closure.Sendable (signature x.message))
    (hsend : sends.foldlM Forward.send out = some out') : AllWritten out' (sent ++ sends) := by
  induction sends generalizing out sent with
  | nil =>
      cases hsend
      rwa [List.append_nil]
  | cons x sends ih =>
      rw [List.foldlM_cons] at hsend
      obtain ⟨out₁, hfirst, hrest⟩ := Option.bind_eq_some_iff.mp hsend
      have hx := h.send (hsends x List.mem_cons_self) hfirst
      have hall := ih hx (fun y hmem => hsends y (List.mem_cons_of_mem _ hmem)) hrest
      rwa [List.append_assoc, List.singleton_append] at hall

section Runs

variable {δ : Type} {handlers : OnMessage δ → Prop} {allowed : State δ → Event → Prop}
  {trace : List Event} {s t : State δ} {onMessage : OnMessage δ} {src : Side} {len : Int}

/-- What a step can be. -/
inductive Stepped (onMessage : OnMessage δ) (s : State δ) : State δ → Prop
  | read (src : Side) (chunk : Queue) (failed : Bool) (behind : Nat → UInt8) :
      Stepped onMessage s (s.read src chunk failed behind)
  | handle {src : Side} {len : Int} {t : State δ} (hpc : s.pc = .loop src len) (hlen : 8 ≤ sizeT len)
      (h : s.handle onMessage src len = .ok t) : Stepped onMessage s t
  | pc (pc : Pc) : Stepped onMessage s { s with pc := pc }

theorem turn_cases (hpc : s.pc = .loop src len) (ok : Bool) :
    Stepped onMessage s (s.turn onMessage src len ok) := by
  unfold State.turn
  split
  · next hlen =>
    split
    · cases hhandle : s.handle onMessage src len with
      | ok t => exact .handle hpc hlen hhandle
      | error failure => exact .pc _
    · exact .pc _
  · exact .pc _

theorem next_cases {event : Event} (h : s.next onMessage event = some t) : Stepped onMessage s t := by
  unfold State.next at h
  split at h
  · cases h
    exact .read _ _ _ _
  · next hpc =>
    cases h
    exact turn_cases hpc _
  · cases h

/-- What a step that handles a message changes. -/
theorem handle_spec (h : s.handle onMessage src len = .ok t) :
    ∃ msg sends closed, (msg.src = src ∧ msg.message ∈ msg.interface.messages src) ∧
      Sends onMessage msg sends closed ∧
      readMessage (signature msg.message) ⟨s.front src, s.fdsIn src⟩ =
        .ok (msg.closure, ⟨(s.front src).drop (parseHeader (s.front src)).size, t.fdsIn src⟩) ∧
      t.conn = Function.update s.conn src ((s.conn src).consume (parseHeader (s.front src)).size) ∧
      t.fdsIn = Function.update s.fdsIn src (t.fdsIn src) ∧
      sends.foldlM send s.out = some t.out ∧ t.closed = s.closed ++ closed ∧
      t.fdsArrived = s.fdsArrived ∧ t.heard = s.heard ++ [msg] ∧ t.sent = s.sent ++ sends := by
  unfold State.handle at h
  split at h
  · cases h
  · next handled hhandled =>
    split at h
    · cases h
    · next out hout =>
      cases h
      obtain ⟨hsrc, hread, hsends⟩ := proxyHandleMessage_spec hhandled
      refine ⟨handled.msg, handled.sends, handled.closed, hsrc, hsends, ?_, rfl, ?_, hout, rfl, rfl, rfl,
        rfl⟩
      · show _ = Except.ok (_, Queue.mk _ (Function.update s.fdsIn src _ src))
        rw [Function.update_self]
        exact hread
      · show Function.update s.fdsIn src handled.fdsIn =
          Function.update s.fdsIn src (Function.update s.fdsIn src handled.fdsIn src)
        rw [Function.update_self]

theorem Sends.sendable (hsound : Sound onMessage) {msg : ProxyMessage} {sends : List Sending}
    {closed : List Int} (hmem : msg.message ∈ msg.interface.messages msg.src)
    (hmsg : msg.closure.Sendable (signature msg.message))
    (h : Sends onMessage msg sends closed) : ∀ x ∈ sends, x.closure.Sendable (signature x.message) := by
  cases h with
  | unknown => exact fun x hmem => absurd hmem List.not_mem_nil
  | dropped session => exact (hsound session msg hmem hmsg).2
  | forwarded session =>
      intro x hx
      rcases List.mem_append.mp hx with hx | hx
      · exact (hsound session msg hmem hmsg).2 x hx
      · rw [List.mem_singleton.mp hx]
        exact (hsound session msg hmem hmsg).1

theorem allWritten (hhandlers : ∀ onMessage, handlers onMessage → Sound onMessage)
    (h : (system handlers allowed).Run trace s) : AllWritten s.out s.sent := by
  refine h.always (fun s => AllWritten s.out s.sent) ?_ ?_
  · rintro _ rfl dst
    exact written_empty
  · rintro s event t hs ⟨-, onMessage, honMessage, hnext⟩
    cases next_cases hnext with
    | read src chunk failed behind => exact hs
    | pc pc => exact hs
    | handle _ _ hhandle =>
        obtain ⟨msg, sends, closed, ⟨rfl, hmem⟩, hsends, hread, -, -, hout, -, -, -, hsent⟩ :=
          handle_spec hhandle
        rw [hsent]
        have hmsg := (sendable_of_readMessage hread).1
        exact hs.sendAll (hsends.sendable (hhandlers onMessage honMessage) hmem hmsg) hout

/-- Whatever the bytes of the two peers are and when they arrive, and whatever the handlers decide, each
peer reads what was sent to it: the closures in order, with their file descriptors. -/
theorem peer_reads (hhandlers : ∀ onMessage, handlers onMessage → Sound onMessage)
    (h : (system handlers allowed).Run trace s) (dst : Side) :
    Reads (s.out dst) ((s.sentTo dst).map Sending.signed) :=
  (allWritten hhandlers h dst).reads

/-- A run with one handler is found by taking the steps. -/
theorem exists_run {α : Type} {f : State δ → α} {a : α} [∀ s event, Decidable (allowed s event)]
    (hhandler : handlers onMessage)
    (h : (Labelled.follow (State.next onMessage) allowed trace (.start δ)).map f = some a) :
    ∃ s, (system handlers allowed).Run trace s ∧ f s = a := by
  obtain ⟨s, hs, ha⟩ := Option.map_eq_some_iff.mp h
  exact ⟨s, (Labelled.Run.start rfl).follow
    (fun _ _ _ hallowed hnext => ⟨hallowed, onMessage, hhandler, hnext⟩) hs, ha⟩

/-- What a peer writes. -/
def wire (messages : List Signed) : Queue :=
  ⟨(messages.map fun message => (written message).bytes).flatten,
    (messages.map fun message => (written message).fds).flatten⟩

def stringArg (name : String) : Wire.Argument :=
  .string (some (.ofBytes (name.toList.map fun c => UInt8.ofNat c.toNat)))

def getRegistry : Signed := (['n'], Wire.getRegistry)

def bindRequest (name : String) (id : UInt32) : Signed :=
  (['u', 's', 'u', 'n'], ⟨2, 0, [.word 1, stringArg name, .word 1, .id id]⟩)

def createPool (shm pool : UInt32) (fd : Int) : Signed :=
  (['n', 'h', 'i'], ⟨shm, 0, [.id pool, .fd fd, .word 4096]⟩)

def globalEvent (name : UInt32) (interface : String) : Signed :=
  (['u', 's', 'u'], ⟨2, 0, [.word name, stringArg interface, .word 1]⟩)

/-- The client binds `wl_shm` and shares a file with the compositor, which has told it of two
globals. -/
def fromClient : List Signed := [getRegistry, bindRequest "wl_shm" 3, createPool 3 4 5]

def fromServer : List Signed := [globalEvent 2 "wl_drm", globalEvent 1 "wl_shm"]

/-- Half of a header of the client arrives first, and the rest behind the events of the
compositor. -/
def sharing : List Event :=
  [.data .client ⟨(wire fromClient).bytes.take 16, []⟩ false fun _ => 0, .turn true, .turn true,
    .data .server (wire fromServer) false fun _ => 0, .turn true, .turn true, .turn true,
    .data .client ⟨(wire fromClient).bytes.drop 16, [5]⟩ false fun _ => 0, .turn true, .turn true,
    .turn true]

theorem peer_reads_sharing : ∃ s : State Unit, (system Transparent State.Whole).Run sharing s ∧
    (s.out .server).fds = [5] ∧ Reads (s.out .server) fromClient ∧
      Reads (s.out .client) [globalEvent 1 "wl_shm"] := by
  have hrun : ∃ s : State Unit, (system Transparent State.Whole).Run sharing s ∧
      ((s.out .server).fds, (s.sentTo .server).map Sending.signed,
        (s.sentTo .client).map Sending.signed) = ([5], fromClient, [globalEvent 1 "wl_shm"]) :=
    exists_run forwardAll_transparent (by decide)
  obtain ⟨s, hs, heq⟩ := hrun
  obtain ⟨hfds, heq⟩ := Prod.mk.inj heq
  obtain ⟨hserver, hclient⟩ := Prod.mk.inj heq
  have hreads := peer_reads (fun _ htransparent => htransparent.sound) hs
  exact ⟨s, hs, hfds, hserver ▸ hreads .server, hclient ▸ hreads .client⟩

/-! ## From one peer to the other -/

theorem parseHeader_later {bytes : List UInt8} (h : 8 ≤ bytes.length) (later : List UInt8) :
    parseHeader (bytes ++ later) = parseHeader bytes := by
  have hdrop : 4 ≤ (bytes.drop 4).length := by
    rw [List.length_drop]
    omega
  rw [parseHeader, parseHeader, List.take_append_of_le_length (by omega),
    List.drop_append_of_le_length (by omega), List.take_append_of_le_length hdrop]

theorem readMessage_later {signature : List Char} {closure : Wire.Closure} {queue rest : Queue}
    (hsize : (parseHeader queue.bytes).size ≤ queue.bytes.length)
    (h : readMessage signature queue = .ok (closure, rest)) (later : Queue) :
    readMessage signature (queue ++ later) = .ok (closure, rest ++ later) := by
  unfold readMessage at h
  dsimp only at h
  split at h
  · cases h
  · next hread =>
    cases h
    have hheader := parseHeader_later (Nat.le_trans (Wire.le_of_demarshal hread) hsize) later.bytes
    have hlater := Wire.wlConnectionDemarshal_later hsize later.bytes later.fds hread
    simp only [readMessage, Queue.bytes_append, Queue.fds_append, hheader, hlater,
      List.drop_append_of_le_length hsize]
    rfl

/-- The messages heard from a peer are what has been read off its connection. -/
def HeardSoFar (s : State δ) : Prop :=
  ∀ src later, readFields readMessage ((s.heardFrom src).map fun msg => signature msg.message)
    (s.arrived src ++ later) = .ok ((s.heardFrom src).map ProxyMessage.closure, s.unread src ++ later)

theorem arrived_read (s : State δ) (src : Side) (chunk : Queue) (failed : Bool) (behind : Nat → UInt8) :
    (s.read src chunk failed behind).arrived = Function.update s.arrived src (s.arrived src ++ chunk) := by
  funext other
  by_cases hother : other = src
  · subst hother
    simp only [State.arrived, State.read, Conn.read, Function.update_self]
    rfl
  · simp only [State.arrived, State.read, Function.update_of_ne hother]

/-- The loop does not go past what has arrived. -/
def Within (s : State δ) : Prop := ∀ src, (s.conn src).tail ≤ (s.conn src).received.length

theorem unread_read (hwithin : Within s) (src : Side) (chunk : Queue) (failed : Bool)
    (behind : Nat → UInt8) :
    (s.read src chunk failed behind).unread = Function.update s.unread src (s.unread src ++ chunk) := by
  funext other
  by_cases hother : other = src
  · subst hother
    simp only [State.unread, State.read, Conn.read, Conn.unread, Function.update_self]
    exact Queue.ext (List.drop_append_of_le_length (hwithin other)) rfl
  · simp only [State.unread, State.read, Function.update_of_ne hother]

theorem parseHeader_front (s : State δ) (src : Side) :
    parseHeader (s.front src) = parseHeader ((s.conn src).copy 8) := by
  have htake : ((s.conn src).copy (max 8 (parseHeader ((s.conn src).copy 8)).size)).take 8 =
      (s.conn src).copy 8 := by
    rw [Conn.copy, ← List.map_take, List.take_range, Nat.min_eq_left (Nat.le_max_left _ _)]
    rfl
  rw [State.front, ← parseHeader_take, htake]

/-- The message at the front when all of it has arrived. -/
theorem front_eq_take (hwhole : (s.front src).length ≤ (s.conn src).unread.length) :
    s.front src = (s.conn src).unread.take (s.front src).length ∧
      (parseHeader (s.front src)).size ≤ (s.front src).length := by
  have hlength : (s.front src).length = max 8 (parseHeader ((s.conn src).copy 8)).size := by
    rw [State.front, Conn.copy, List.length_map, List.length_range]
  refine ⟨?_, ?_⟩
  · rw [hlength] at hwhole ⊢
    exact Conn.copy_eq_take hwhole
  · rw [parseHeader_front, hlength]
    exact Nat.le_max_right _ _

/-- A message that has arrived is read off the connection. -/
theorem readMessage_front {signature : List Char} {closure : Wire.Closure} {fds : List Int}
    (hwhole : (s.front src).length ≤ (s.conn src).unread.length)
    (h : readMessage signature ⟨s.front src, s.fdsIn src⟩ =
      .ok (closure, ⟨(s.front src).drop (parseHeader (s.front src)).size, fds⟩)) (later : Queue) :
    readMessage signature (s.unread src ++ later) = .ok (closure,
      ⟨((s.conn src).consume (parseHeader (s.front src)).size).unread, fds⟩ ++ later) := by
  obtain ⟨htake, hsize⟩ := front_eq_take hwhole
  have hsplit : s.front src ++ (s.conn src).unread.drop (s.front src).length = (s.conn src).unread := by
    nth_rewrite 1 [htake]
    exact List.take_append_drop _ _
  have hlater := readMessage_later hsize h (⟨(s.conn src).unread.drop (s.front src).length, []⟩ ++ later)
  rw [← Queue.append_assoc, ← Queue.append_assoc] at hlater
  have hqueue : Queue.mk (s.front src) (s.fdsIn src) ++
      ⟨(s.conn src).unread.drop (s.front src).length, []⟩ = s.unread src :=
    Queue.ext hsplit (List.append_nil _)
  have hrest : Queue.mk ((s.front src).drop (parseHeader (s.front src)).size) fds ++
      ⟨(s.conn src).unread.drop (s.front src).length, []⟩ =
        ⟨((s.conn src).consume (parseHeader (s.front src)).size).unread, fds⟩ := by
    refine Queue.ext ?_ (List.append_nil _)
    show (s.front src).drop _ ++ (s.conn src).unread.drop _ = _
    rw [← List.drop_append_of_le_length hsize, hsplit, Conn.unread, List.drop_drop]
    rfl
  rwa [hqueue, hrest] at hlater

/-- What is true while the loop takes whole messages only. -/
structure Framed (s : State δ) : Prop where
  within : Within s
  heard : HeardSoFar s

theorem Framed.read (h : Framed s) (src : Side) (chunk : Queue) (failed : Bool) (behind : Nat → UInt8) :
    Framed (s.read src chunk failed behind) where
  within := by
    intro other
    have hbefore := h.within other
    by_cases hother : other = src
    · subst hother
      simp only [State.read, Conn.read, Function.update_self, List.length_append]
      omega
    · simp only [State.read, Function.update_of_ne hother]
      exact hbefore
  heard := by
    intro other later
    have hread := h.heard other
    rw [arrived_read, unread_read h.within]
    by_cases hother : other = src
    · subst hother
      rw [Function.update_self, Function.update_self, Queue.append_assoc, Queue.append_assoc]
      exact hread (chunk ++ later)
    · rw [Function.update_of_ne hother, Function.update_of_ne hother]
      exact hread later

theorem Framed.handle (h : Framed s) (hwhole : (s.front src).length ≤ (s.conn src).unread.length)
    (hhandle : s.handle onMessage src len = .ok t) : Framed t := by
  obtain ⟨msg, sends, closed, ⟨hsrc, -⟩, -, hmessage, hconn, hfds, -, -, hfdsArrived, hheard, -⟩ :=
    handle_spec hhandle
  have hreceived : ∀ other, (t.conn other).received = (s.conn other).received := by
    intro other
    rw [hconn]
    by_cases hother : other = src
    · subst hother
      rw [Function.update_self]
      rfl
    · rw [Function.update_of_ne hother]
  have harrived : t.arrived = s.arrived := by
    funext other
    rw [State.arrived, State.arrived, hreceived, hfdsArrived]
  constructor
  · intro other
    rw [hreceived, hconn]
    by_cases hother : other = src
    · subst hother
      obtain ⟨-, hsize⟩ := front_eq_take hwhole
      have hwithin := h.within other
      rw [Conn.unread, List.length_drop] at hwhole
      rw [Function.update_self, Conn.consume]
      dsimp only
      have hpos : 8 ≤ (s.front other).length := by
        rw [State.front, Conn.copy, List.length_map, List.length_range]
        exact Nat.le_max_left _ _
      omega
    · rw [Function.update_of_ne hother]
      exact h.within other
  · intro other later
    rw [State.heardFrom, hheard, harrived, List.filter_append]
    by_cases hother : other = src
    · subst hother
      rw [List.filter_cons_of_pos (by simpa using hsrc), List.filter_nil, List.map_append,
        List.map_append]
      refine readFields_append (h.heard other later) ?_
      refine readFields_cons.mpr ⟨_, _, _, rfl, readMessage_front hwhole hmessage later, ?_⟩
      rw [State.unread, hconn, Function.update_self]
      rfl
    · rw [List.filter_cons_of_neg (by simpa [hsrc] using Ne.symm hother), List.filter_nil,
        List.append_nil, State.unread, hconn, hfds, Function.update_of_ne hother,
        Function.update_of_ne hother]
      exact h.heard other later

theorem Framed.next (h : Framed s) {event : Event} (hwhole : s.Whole event)
    (hnext : s.next onMessage event = some t) : Framed t := by
  cases next_cases hnext with
  | read src chunk failed behind => exact h.read src chunk failed behind
  | pc pc => exact ⟨h.within, h.heard⟩
  | handle hpc hlen hhandle =>
      unfold State.Whole at hwhole
      rw [hpc] at hwhole
      exact h.handle (hwhole hlen) hhandle

theorem framed_start (δ : Type) : Framed (State.start δ) :=
  ⟨fun _ => Nat.le_refl _, fun _ _ => rfl⟩

/-- In every run in which the loop takes whole messages only. -/
theorem framed (hallowed : ∀ s event, allowed s event → State.Whole s event)
    (h : (system handlers allowed).Run trace s) : Framed s := by
  refine h.always Framed ?_ ?_
  · rintro _ rfl
    exact framed_start δ
  · rintro s event t hs ⟨hstep, onMessage, -, hnext⟩
    exact hs.next (hallowed s event hstep) hnext

/-- Who reads with the signatures of the writer reads what was written. -/
theorem readFields_written {fields : List (List Char)} {values : List Wire.Closure}
    {messages : List Signed} {rest : Queue} (hsendable : ∀ m ∈ messages, m.2.Sendable m.1)
    (hagree : ∀ (k : Nat) (d : List Char) (m : Signed), fields[k]? = some d → messages[k]? = some m →
      d = m.1) (h : readFields readMessage fields (messageCodec.writeFields messages .empty) =
      .ok (values, rest)) :
    fields.zip values = messages.take fields.length := by
  induction fields generalizing values messages with
  | nil => rfl
  | cons d fields ih =>
      obtain ⟨a, values, t, rfl, hread, hrest⟩ := readFields_cons.mp h
      cases messages with
      | nil =>
          have hempty : readMessage d .empty = .error .invalidHeader := rfl
          rw [show readMessage d .empty = .ok (a, t) from hread] at hempty
          cases hempty
      | cons message messages =>
          have hd : d = message.1 := hagree 0 d message rfl rfl
          have hwritten := readMessage_written (hsendable message List.mem_cons_self)
            (messageCodec.writeFields messages .empty)
          rw [← hd] at hwritten
          obtain ⟨rfl, rfl⟩ := Prod.mk.inj (Except.ok.inj (hwritten.symm.trans hread))
          have hall := ih (fun m hmem => hsendable m (List.mem_cons_of_mem _ hmem))
            (fun k => hagree (k + 1)) hrest
          rw [List.zip_cons_cons, hall, List.length_cons, List.take_succ_cons, hd]

/-- With such handlers the messages that are heard from a peer are sent to the other one. -/
structure Passed (s : State δ) : Prop where
  sent : s.sent = (s.heard.filter fun msg => ¬ msg.UnknownGlobal).map fun msg =>
    ⟨msg.src.other, msg.message, msg.closure⟩
  declared : ∀ msg ∈ s.heard, msg.message ∈ msg.interface.messages msg.src

theorem Passed.handle (h : Passed s) (htransparent : Transparent onMessage)
    (hhandle : s.handle onMessage src len = .ok t) : Passed t := by
  obtain ⟨msg, sends, closed, ⟨hsrc, hmem⟩, hsends, -, -, -, -, -, -, hheard, hall⟩ := handle_spec hhandle
  refine ⟨?_, ?_⟩
  · rw [hall, h.sent, hheard, List.filter_append, List.map_append]
    congr 1
    cases hsends with
    | unknown hunknown =>
        rw [List.filter_cons_of_neg (by simpa using hunknown), List.filter_nil, List.map_nil]
    | dropped session _ haction =>
        rw [(htransparent session msg).2.2] at haction
        cases haction
    | forwarded session hunknown =>
        obtain ⟨hemitted, hclosure, -⟩ := htransparent session msg
        rw [hemitted, hclosure, List.nil_append, List.filter_cons_of_pos (by simpa using hunknown),
          List.filter_nil, List.map_singleton]
  · rw [hheard]
    intro x hx
    rcases List.mem_append.mp hx with hx | hx
    · exact h.declared x hx
    · rw [List.mem_singleton.mp hx, hsrc]
      exact hmem

theorem passed (h : (system Transparent allowed).Run trace s) : Passed s := by
  refine h.always Passed ?_ ?_
  · rintro _ rfl
    exact ⟨rfl, fun msg hmem => absurd hmem List.not_mem_nil⟩
  · rintro s event t hs ⟨-, onMessage, htransparent, hnext⟩
    cases next_cases hnext with
    | read src chunk failed behind => exact ⟨hs.sent, hs.declared⟩
    | pc pc => exact ⟨hs.sent, hs.declared⟩
    | handle _ _ hhandle => exact hs.handle htransparent hhandle

/-- Only the compositor announces globals. -/
theorem not_unknownGlobal {msg : ProxyMessage} (hsrc : msg.src = .client)
    (h : msg.message ∈ msg.interface.messages msg.src) : ¬ msg.UnknownGlobal := by
  rintro ⟨hname, hglobal, -⟩
  obtain ⟨src, interface, message, closure⟩ := msg
  have hnames : (Interface.wlRegistry.messages .client).all fun m => m.name != "global" := rfl
  obtain rfl : interface = .wlRegistry := (name_eq_wl_registry interface).mp hname
  obtain rfl : src = .client := hsrc
  have hne := List.all_eq_true.mp hnames message h
  rw [show message.name = "global" from hglobal] at hne
  cases hne

theorem other_eq_iff (side dst : Side) : side.other = dst.other ↔ side = dst := by
  cases side <;> cases dst <;> decide

/-- The other peer reads what was heard from this one, but for globals that are not supported. -/
theorem transparent_reads (h : (system Transparent allowed).Run trace s) (src : Side) :
    Reads (s.out src.other)
      (((s.heardFrom src).filter fun msg => ¬ msg.UnknownGlobal).map ProxyMessage.signed) := by
  have hreads := (allWritten (fun _ htransparent => htransparent.sound) h src.other).reads
  have hsigned : signedTo src.other s.sent =
      ((s.heardFrom src).filter fun msg => ¬ msg.UnknownGlobal).map ProxyMessage.signed := by
    rw [signedTo, (passed h).sent, List.filter_map, List.map_map, State.heardFrom, List.filter_filter,
      List.filter_filter]
    congr 1
    apply List.filter_congr
    intro msg _
    simp only [Function.comp_apply, other_eq_iff]
    exact Bool.and_comm _ _
  rwa [hsigned] at hreads

/-- A peer puts messages into its connection, of which some have arrived at the proxy, in parts that
never end between the header of a message and its end, and the table of the proxy gives them the
signatures that the peer used.  Then the proxy has heard the first of them, and the other peer reads
these, but for globals that are not supported; a request is never left out. -/
theorem end_to_end (h : (system Transparent State.Whole).Run trace s) {src : Side}
    {messages : List Signed} {queue later : Queue} (hwritten : Written queue messages)
    (harrived : s.arrived src ++ later = queue)
    (hagree : ∀ (k : Nat) (msg : ProxyMessage) (m : Signed), (s.heardFrom src)[k]? = some msg →
      messages[k]? = some m → signature msg.message = m.1) :
    (s.heardFrom src).map ProxyMessage.signed = messages.take (s.heardFrom src).length ∧
      Reads (s.out src.other)
        (((s.heardFrom src).filter fun msg => ¬ msg.UnknownGlobal).map ProxyMessage.signed) ∧
      (src = .client → Reads (s.out .server) (messages.take (s.heardFrom src).length)) := by
  have hfirst : (s.heardFrom src).map ProxyMessage.signed =
      messages.take (s.heardFrom src).length := by
    have hread := (framed (fun _ _ hwhole => hwhole) h).heard src (later ++ .empty)
    rw [← Queue.append_assoc, harrived, ← writeFields_of_written hwritten] at hread
    have hfields : ∀ (k : Nat) (d : List Char) (m : Signed),
        ((s.heardFrom src).map fun msg => signature msg.message)[k]? = some d →
          messages[k]? = some m → d = m.1 := by
      intro k d m hd hm
      rw [List.getElem?_map] at hd
      obtain ⟨msg, hmsg, rfl⟩ := Option.map_eq_some_iff.mp hd
      exact hagree k msg m hmsg hm
    have hzip := readFields_written hwritten.sendable hfields hread
    rwa [List.zip_map', List.length_map] at hzip
  refine ⟨hfirst, transparent_reads h src, ?_⟩
  rintro rfl
  have hall : (s.heardFrom .client).filter (fun msg => ¬ msg.UnknownGlobal) = s.heardFrom .client := by
    rw [List.filter_eq_self]
    intro msg hmem
    obtain ⟨hmem, hsrc⟩ := List.mem_filter.mp hmem
    exact decide_eq_true (not_unknownGlobal (of_decide_eq_true hsrc) ((passed h).declared msg hmem))
  have hreads := transparent_reads h .client
  rwa [hall, hfirst] at hreads

theorem wire_written {messages : List Signed} (h : ∀ message ∈ messages, message.2.Sendable message.1) :
    Written (wire messages) messages := ⟨h, rfl, rfl⟩

theorem sharing_sendable :
    ∀ message ∈ fromClient ++ [getRegistry], message.2.Sendable message.1 := by
  have hbind : (bindRequest "wl_shm" 3).2.Sendable (bindRequest "wl_shm" 3).1 :=
    ⟨.cons .uint (.cons (.string (by decide)) (.cons .uint (.cons (.newId (by decide)) .nil))),
      by decide, by decide, by decide⟩
  have hpool : (createPool 3 4 5).2.Sendable (createPool 3 4 5).1 :=
    ⟨.cons (.newId (by decide)) (.cons .fd (.cons .int .nil)), by decide, by decide, by decide⟩
  intro message hmem
  simp only [fromClient, List.cons_append, List.nil_append, List.mem_cons, List.not_mem_nil,
    or_false] at hmem
  rcases hmem with rfl | rfl | rfl | rfl
  · exact Wire.getRegistry_sendable
  · exact hbind
  · exact hpool
  · exact Wire.getRegistry_sendable

/-- A fourth message has not arrived. -/
theorem end_to_end_sharing : ∃ s : State Unit, (system Transparent State.Whole).Run sharing s ∧
    (s.heardFrom .client).map ProxyMessage.signed =
      (fromClient ++ [getRegistry]).take (s.heardFrom .client).length ∧
    Reads (s.out .server) fromClient := by
  have hrun : ∃ s : State Unit, (system Transparent State.Whole).Run sharing s ∧
      ((s.arrived .client).bytes, (s.arrived .client).fds,
        (s.heardFrom .client).map ProxyMessage.signed) =
        ((wire fromClient).bytes, [5], fromClient) :=
    exists_run forwardAll_transparent (by decide)
  obtain ⟨s, hs, heq⟩ := hrun
  obtain ⟨hbytes, heq⟩ := Prod.mk.inj heq
  obtain ⟨hfds, hheard⟩ := Prod.mk.inj heq
  have hlength : (s.heardFrom .client).length = 3 := by
    rw [← List.length_map ProxyMessage.signed, hheard]
    rfl
  have harrived : s.arrived .client ++ wire [getRegistry] = wire (fromClient ++ [getRegistry]) := by
    apply Queue.ext
    · rw [Queue.bytes_append, hbytes]
      rfl
    · rw [Queue.fds_append, hfds]
      rfl
  have hagree : ∀ (k : Nat) (msg : ProxyMessage) (m : Signed), (s.heardFrom .client)[k]? = some msg →
      (fromClient ++ [getRegistry])[k]? = some m → signature msg.message = m.1 := by
    intro k msg m hmsg hm
    have hk : k < fromClient.length := by
      rw [← hheard, List.length_map]
      exact (List.getElem?_eq_some_iff.mp hmsg).1
    rw [List.getElem?_append_left hk, ← hheard, List.getElem?_map, hmsg] at hm
    exact congrArg Prod.fst (Option.some.inj hm)
  obtain ⟨hfirst, -, hreads⟩ := end_to_end hs (wire_written sharing_sendable) harrived hagree
  have hserver := hreads rfl
  rw [hlength] at hserver
  exact ⟨s, hs, hfirst, hserver⟩

/-! ## File descriptors -/

/-- The handler leaves the file descriptors of a message to it, and sends none itself. -/
def KeepsFds (onMessage : OnMessage δ) : Prop :=
  ∀ session msg, msg.message ∈ msg.interface.messages msg.src →
    (onMessage session msg).closure.fds (signature msg.message) = msg.fds ∧
      ∀ x ∈ (onMessage session msg).emitted, x.closure.fds (signature x.message) = []

/-- Those of both connections. -/
def bothFds (queues : Side → Queue) : List Int := (queues .client).fds ++ (queues .server).fds

theorem count_bothFds_update (queues : Side → Queue) (side : Side) (queue : Queue) (fd : Int) :
    (bothFds (Function.update queues side queue)).count fd + (queues side).fds.count fd =
      (bothFds queues).count fd + queue.fds.count fd := by
  cases side with
  | client =>
      rw [bothFds, bothFds, Function.update_self, Function.update_of_ne (by decide),
        List.count_append, List.count_append]
      omega
  | server =>
      rw [bothFds, bothFds, Function.update_self, Function.update_of_ne (by decide),
        List.count_append, List.count_append]
      omega

theorem count_bothFds_append (queues : Side → Queue) (side : Side) (queue : Queue) (fd : Int) :
    (bothFds (Function.update queues side (queues side ++ queue))).count fd =
      (bothFds queues).count fd + queue.fds.count fd := by
  have hcount := count_bothFds_update queues side (queues side ++ queue) fd
  rw [Queue.fds_append, List.count_append] at hcount
  omega

theorem count_send {out out' : Side → Queue} {x : Sending} (h : send out x = some out') (fd : Int) :
    (bothFds out').count fd = (bothFds out).count fd + (x.closure.fds (signature x.message)).count fd := by
  unfold send Wire.wlClosureSend at h
  dsimp only at h
  cases hserialize : Wire.serializeClosure x.closure (x.closure.details (signature x.message))
    (Wire.bufferSizeForClosure (x.closure.details (signature x.message))) with
  | none =>
      rw [hserialize] at h
      cases h
  | some buffer =>
      rw [hserialize] at h
      cases h
      rw [count_bothFds_append, Wire.copyFds_eq]
      rfl

theorem count_sendAll {sends : List Sending} {out out' : Side → Queue}
    (h : sends.foldlM send out = some out') (fd : Int) :
    (bothFds out').count fd = (bothFds out).count fd +
      (sends.flatMap fun x => x.closure.fds (signature x.message)).count fd := by
  induction sends generalizing out with
  | nil =>
      cases h
      rfl
  | cons x sends ih =>
      rw [List.foldlM_cons] at h
      obtain ⟨out₁, hfirst, hrest⟩ := Option.bind_eq_some_iff.mp h
      rw [ih hrest, count_send hfirst, List.flatMap_cons, List.count_append, Nat.add_assoc]

/-- Each file descriptor of a message is sent once or closed once. -/
theorem Sends.fds (hkeeps : KeepsFds onMessage) {msg : ProxyMessage} {sends : List Sending}
    {closed : List Int} (hmem : msg.message ∈ msg.interface.messages msg.src)
    (h : Sends onMessage msg sends closed) :
    (sends.flatMap fun x => x.closure.fds (signature x.message)) ++ closed = msg.fds := by
  cases h with
  | unknown => rfl
  | dropped session =>
      obtain ⟨hclosure, hemitted⟩ := hkeeps session msg hmem
      rw [hclosure, List.flatMap_eq_nil_iff.mpr hemitted, List.nil_append]
  | forwarded session =>
      obtain ⟨hclosure, hemitted⟩ := hkeeps session msg hmem
      rw [List.flatMap_append, List.flatMap_eq_nil_iff.mpr hemitted, List.flatMap_singleton, hclosure,
        List.nil_append, List.append_nil]

/-- No file descriptor is lost, sent twice, or closed when it has been sent: those that came in are
waiting, sent or closed. -/
theorem descriptors (hhandlers : ∀ onMessage, handlers onMessage → KeepsFds onMessage)
    (h : (system handlers allowed).Run trace s) :
    (bothFds s.arrived).Perm (bothFds s.unread ++ bothFds s.out ++ s.closed) := by
  rw [List.perm_iff_count]
  refine h.always (fun s => ∀ fd, (bothFds s.arrived).count fd =
    (bothFds s.unread ++ bothFds s.out ++ s.closed).count fd) ?_ ?_
  · rintro _ rfl fd
    rfl
  · rintro s event t hs ⟨-, onMessage, honMessage, hnext⟩ fd
    have hbefore := hs fd
    cases next_cases hnext with
    | pc pc => exact hbefore
    | read src chunk failed behind =>
        have harrived := count_bothFds_append s.arrived src chunk fd
        have hunread := count_bothFds_append s.unread src chunk fd
        have hfdsArrived : bothFds (s.read src chunk failed behind).arrived =
            bothFds (Function.update s.arrived src (s.arrived src ++ chunk)) := by
          rw [arrived_read]
        have hfdsIn : bothFds (s.read src chunk failed behind).unread =
            bothFds (Function.update s.unread src (s.unread src ++ chunk)) := by
          cases src <;> rfl
        rw [hfdsArrived, hfdsIn]
        simp only [State.read, List.count_append] at hbefore ⊢
        omega
    | @handle src len _ _ _ hhandle =>
        obtain ⟨msg, sends, closed, ⟨rfl, hmem⟩, hsends, hread, -, hfdsIn, hout, hclosed, hfdsArrived,
          -, -⟩ :=
          handle_spec hhandle
        have harrived : bothFds t.arrived = bothFds s.arrived := by
          rw [bothFds, bothFds, State.arrived, State.arrived, hfdsArrived]
          rfl
        have hunread : bothFds t.unread =
            bothFds (Function.update s.unread msg.src ⟨[], t.fdsIn msg.src⟩) := by
          rw [bothFds, State.unread, State.unread, hfdsIn]
          cases msg.src <;> rfl
        have hqueue := count_bothFds_update s.unread msg.src ⟨[], t.fdsIn msg.src⟩ fd
        have hkept : msg.fds ++ t.fdsIn msg.src = s.fdsIn msg.src := (sendable_of_readMessage hread).2
        rw [← hunread, State.unread, ← hkept, List.count_append] at hqueue
        dsimp only at hqueue
        have hfds := congrArg (List.count fd) (hsends.fds (hhandlers onMessage honMessage) hmem)
        rw [List.count_append] at hfds
        rw [harrived, hbefore, hclosed]
        simp only [List.count_append, count_sendAll hout fd]
        omega

end Runs

end Stratus.Capture.Forward
