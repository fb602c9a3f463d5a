import Stratus.Capture.ProxyMessage
import Stratus.Capture.WireRoundTrip

/-! `proxy_handle_message` on the bytes of a message: what it demarshals, what the handler makes of
that, and what is written to the connections of the two peers.  And the loop of `proxy_handle_data`,
which cuts these messages out of what a peer has sent. -/
namespace Stratus.Capture.Forward

open Stratus.Lib Stratus.Capture.Proxy

/-! ## Signatures -/

/-- The code that the scanner prints for an argument. -/
def codes : ArgDecl → List Char
  | .int => ['i']
  | .uint => ['u']
  | .fixed => ['f']
  | .string nullable => if nullable then ['?', 's'] else ['s']
  | .object _ nullable => if nullable then ['?', 'o'] else ['o']
  | .newId none => ['s', 'u', 'n']
  | .newId (some _) => ['n']
  | .array => ['a']
  | .fd => ['h']

/-- The signature of a `struct wl_message`, without the version in front of it, which
`get_next_argument` passes over. -/
def signature (message : Message) : List Char := message.args.flatMap codes

def details : ArgDecl → Wire.ArgumentDetails
  | .int => ⟨.int, false⟩
  | .uint => ⟨.uint, false⟩
  | .fixed => ⟨.fixed, false⟩
  | .string nullable => ⟨.string, nullable⟩
  | .object _ nullable => ⟨.object, nullable⟩
  | .newId _ => ⟨.newId, false⟩
  | .array => ⟨.array, false⟩
  | .fd => ⟨.fd, false⟩

section Codes

variable {code : Char} {type : Wire.ArgType} {rest : List Char}

theorem arguments_code (h : Wire.ArgType.ofCode code = some type) :
    Wire.arguments (code :: rest) = ⟨type, false⟩ :: Wire.arguments rest := by
  simp only [Wire.arguments, Wire.argCountForSignature, List.countP_cons, h, Option.isSome_some,
    if_true, Wire.nextArguments, Wire.getNextArgument]

theorem arguments_nullable (h : Wire.ArgType.ofCode code = some type) :
    Wire.arguments ('?' :: code :: rest) = ⟨type, true⟩ :: Wire.arguments rest := by
  have hmark : Wire.ArgType.ofCode '?' = none := rfl
  simp only [Wire.arguments, Wire.argCountForSignature, List.countP_cons, h, hmark,
    Option.isSome_some, Option.isSome_none, if_true, Bool.false_eq_true, if_false, Nat.add_zero,
    Wire.nextArguments, Wire.getNextArgument, Bool.false_or, beq_self_eq_true]

theorem arguments_codes (arg : ArgDecl) :
    Wire.arguments (codes arg ++ rest) =
      ((Message.mk "" [arg]).signature.map details) ++ Wire.arguments rest := by
  cases arg with
  | string nullable => cases nullable <;> first | exact arguments_nullable rfl | exact arguments_code rfl
  | object interface nullable =>
      cases nullable <;> first | exact arguments_nullable rfl | exact arguments_code rfl
  | newId interface =>
      cases interface with
      | none =>
          refine (arguments_code rfl).trans (congrArg (List.cons _) ?_)
          exact (arguments_code rfl).trans (congrArg (List.cons _) (arguments_code rfl))
      | some interface => exact arguments_code rfl
  | _ => exact arguments_code rfl

end Codes

/-- The signature says what the declaration does. -/
theorem arguments_signature (message : Message) :
    Wire.arguments (signature message) = message.signature.map details := by
  obtain ⟨name, args⟩ := message
  induction args with
  | nil => rfl
  | cons arg args ih =>
      show Wire.arguments (codes arg ++ signature ⟨name, args⟩) = _
      rw [arguments_codes, ih, ← List.map_append]
      simp only [Message.signature, List.flatMap_cons, List.flatMap_nil, List.append_nil]

/-- The argument as the handlers of the table see it.  The names that are compared are ASCII. -/
def argOf (arg : ArgDecl) (value : Wire.Argument) : Arg :=
  match arg with
  | .int | .uint | .fixed => .word value.u.toNat
  | .string _ => .string (value.s.map fun s => String.ofList (s.bytes.map fun b => Char.ofNat b.toNat))
  | .object _ _ => .object value.n.toNat
  | .newId _ => .newId value.n.toNat
  | .array => .array (value.a.getD [])
  | .fd => .fd

/-! ## One message -/

/-- `struct proxy_message`, with the peer it comes from. -/
structure ProxyMessage where
  src : Side
  interface : Interface
  message : Message
  closure : Wire.Closure

namespace ProxyMessage

def args (msg : ProxyMessage) : List Arg :=
  List.zipWith argOf msg.message.signature msg.closure.args

def parsed (msg : ProxyMessage) : Proxy.Closure := ⟨msg.interface, msg.message, msg.args⟩

def fds (msg : ProxyMessage) : List Int := msg.closure.fds (signature msg.message)

/-- A `wl_registry@global` event for an interface that is not supported. -/
def UnknownGlobal (msg : ProxyMessage) : Prop :=
  msg.interface.name = "wl_registry" ∧ msg.message.name = "global" ∧
    proxyLookupInterface (msg.parsed.stringArg 1) = none

instance (msg : ProxyMessage) : Decidable msg.UnknownGlobal :=
  inferInstanceAs (Decidable (_ ∧ _ ∧ _))

end ProxyMessage

end Stratus.Capture.Forward

namespace Stratus.Capture.Proxy

/-- The connection that a message is forwarded to. -/
def Side.other : Side → Side
  | .client => .server
  | .server => .client

end Stratus.Capture.Proxy

namespace Stratus.Capture.Forward

open Stratus.Lib Stratus.Capture.Proxy

/-- A call of `wl_closure_send`. -/
structure Sending where
  dst : Side
  message : Message
  closure : Wire.Closure
deriving DecidableEq

/-- What `on_message` does to a message: what it sends itself, and the closure as it leaves it. -/
structure Effect (δ : Type) where
  data : WlMap δ
  emitted : List Sending
  closure : Wire.Closure
  action : Action

abbrev OnMessage (δ : Type) := Session δ → ProxyMessage → Effect δ

/-- What is left of `fds_in`, the calls of `wl_closure_send`, and the file descriptors that
`wl_closure_destroy` closes. -/
structure Handled (δ : Type) where
  session : Session δ
  msg : ProxyMessage
  fdsIn : List Int
  sends : List Sending
  closed : List Int

variable {δ : Type}

/-- The end of `proxy_handle_message`. -/
def finish (onMessage : OnMessage δ) (session : Session δ) (msg : ProxyMessage) (fdsIn : List Int)
    (newObjects : Bool) : Except Failure (Handled δ) :=
  let effect := onMessage session msg
  let session := { session with objData := effect.data }
  match effect.action with
  | .err => .error .handler
  | .drop =>
      if newObjects then .error .droppedNewObject
      else .ok ⟨session, msg, fdsIn, effect.emitted, effect.closure.fds (signature msg.message)⟩
  | .forward =>
      .ok ⟨session, msg, fdsIn,
        effect.emitted ++ [⟨msg.src.other, msg.message, effect.closure⟩], []⟩

def proxyHandleMessage (onMessage : OnMessage δ) (session : Session δ) (src : Side)
    (received : List UInt8) (fdsIn : List Int) : Except Failure (Handled δ) :=
  let header := parseHeader received
  match session.objTypes.lookup header.id with
  | none => .error .noInterface
  | some interface =>
      match (interface.messages src)[header.opcode]? with
      | none => .error .noMessage
      | some message =>
          match Wire.wlConnectionDemarshal header.size (signature message) received fdsIn with
          | .error _ => .error .demarshal
          | .ok (closure, fdsIn) =>
              let msg : ProxyMessage := ⟨src, interface, message, closure⟩
              let session := { session with
                objTypes := (newIds message.signature msg.args).foldl WlMap.reserveNew session.objTypes }
              if msg.UnknownGlobal then .ok ⟨session, msg, fdsIn, [], msg.fds⟩
              else
                match registerObjects session msg.parsed with
                | .error failure => .error failure
                | .ok (session, newObjects) => finish onMessage session msg fdsIn newObjects

/-! ## A session -/

/-- One of the two directions of a connection: bytes and the file descriptors that go with them. -/
@[ext] structure Queue where
  bytes : List UInt8
  fds : List Int

namespace Queue

def empty : Queue := ⟨[], []⟩

def append (queue queue' : Queue) : Queue := ⟨queue.bytes ++ queue'.bytes, queue.fds ++ queue'.fds⟩

instance : Append Queue := ⟨append⟩

@[simp] theorem bytes_append (queue queue' : Queue) :
    (queue ++ queue').bytes = queue.bytes ++ queue'.bytes := rfl

@[simp] theorem fds_append (queue queue' : Queue) :
    (queue ++ queue').fds = queue.fds ++ queue'.fds := rfl

theorem append_assoc (queue queue' queue'' : Queue) :
    queue ++ queue' ++ queue'' = queue ++ (queue' ++ queue'') :=
  Queue.ext (List.append_assoc _ _ _) (List.append_assoc _ _ _)

end Queue

/-- `wl_closure_send` to one of the two connections. -/
def send (out : Side → Queue) (sending : Sending) : Option (Side → Queue) :=
  match Wire.wlClosureSend (signature sending.message) sending.closure with
  | none => none
  | some (bytes, fds) =>
      some (Function.update out sending.dst (out sending.dst ++ ⟨bytes, fds⟩))

/-- Why the proxy serves a session no longer: what `proxy_handle_message` says, or there is no memory,
or `wl_connection_flush` fails. -/
inductive Stop where
  | message (failure : Failure)
  | noMemory
  | flush
deriving DecidableEq

/-- Between two calls of `proxy_handle_data`, in its loop, or after it has failed. -/
inductive Pc where
  | ready
  | loop (src : Side) (len : Int)
  | stopped (reason : Stop)
deriving DecidableEq

/-- `conn` and `fdsIn` are the input buffers of the two connections, `out` is `out` and `fds_out` with
what has been flushed already.  The rest is what has happened so far: the file descriptors that came
in, those that were closed, the messages that were demarshalled and those that were sent. -/
structure State (δ : Type) where
  session : Session δ
  conn : Side → Conn
  fdsIn : Side → List Int
  out : Side → Queue
  pc : Pc
  closed : List Int
  fdsArrived : Side → List Int
  heard : List ProxyMessage
  sent : List Sending

/-- `wl_connection_read` for a peer, and what the buffer then holds behind the bytes that have arrived;
or a turn of the loop of `proxy_handle_data`, with what its calls return. -/
inductive Event where
  | data (src : Side) (chunk : Queue) (failed : Bool) (behind : Nat → UInt8)
  | turn (ok : Bool)

namespace State

def start (δ : Type) : State δ where
  session := Session.create δ
  conn := fun _ => ⟨[], 0, fun _ => 0⟩
  fdsIn := fun _ => []
  out := fun _ => .empty
  pc := .ready
  closed := []
  fdsArrived := fun _ => []
  heard := []
  sent := []

/-- Everything that came in from a peer, and what of it waits. -/
def arrived (s : State δ) (src : Side) : Queue := ⟨(s.conn src).received, s.fdsArrived src⟩

def unread (s : State δ) (src : Side) : Queue := ⟨(s.conn src).unread, s.fdsIn src⟩

/-- The beginning of `proxy_handle_data`. -/
def read (s : State δ) (src : Side) (chunk : Queue) (failed : Bool) (behind : Nat → UInt8) : State δ :=
  let (conn, len) := (s.conn src).read chunk.bytes
  { s with
    conn := Function.update s.conn src { conn with stale := behind }
    fdsIn := Function.update s.fdsIn src (s.fdsIn src ++ chunk.fds)
    fdsArrived := Function.update s.fdsArrived src (s.fdsArrived src ++ chunk.fds)
    pc := .loop src (if failed then -1 else len) }

/-- The bytes that the next message consists of, whether they have arrived or not. -/
def front (s : State δ) (src : Side) : List UInt8 :=
  (s.conn src).copy (max 8 (parseHeader ((s.conn src).copy 8)).size)

/-- `proxy_handle_message` for the message at the front. -/
def handle (s : State δ) (onMessage : OnMessage δ) (src : Side) (len : Int) : Except Failure (State δ) :=
  match Forward.proxyHandleMessage onMessage s.session src (s.front src) (s.fdsIn src) with
  | .error failure => .error failure
  | .ok handled =>
      match handled.sends.foldlM send s.out with
      | none => .error .send
      | some out =>
          let size := (parseHeader (s.front src)).size
          .ok { s with
            session := handled.session
            conn := Function.update s.conn src ((s.conn src).consume size)
            fdsIn := Function.update s.fdsIn src handled.fdsIn
            out := out
            pc := .loop src (cInt (len - size))
            closed := s.closed ++ handled.closed
            heard := s.heard ++ [handled.msg]
            sent := s.sent ++ handled.sends }

/-- A turn of the loop, which compares `len` as a `size_t`.  A message that fails is the last one. -/
def turn (s : State δ) (onMessage : OnMessage δ) (src : Side) (len : Int) (ok : Bool) : State δ :=
  if 8 ≤ sizeT len then
    if ok then
      match s.handle onMessage src len with
      | .ok t => t
      | .error failure => { s with pc := .stopped (.message failure) }
    else { s with pc := .stopped .noMemory }
  else { s with pc := if ok then .ready else .stopped .flush }

def next (onMessage : OnMessage δ) (s : State δ) (event : Event) : Option (State δ) :=
  match event, s.pc with
  | .data src chunk failed behind, .ready => some (s.read src chunk failed behind)
  | .turn ok, .loop src len => some (s.turn onMessage src len ok)
  | _, _ => none

/-- When the loop takes a message, all its bytes have arrived. -/
def Whole (s : State δ) (_ : Event) : Prop :=
  match s.pc with
  | .loop src len => 8 ≤ sizeT len → (s.front src).length ≤ (s.conn src).unread.length
  | _ => True

instance (s : State δ) (event : Event) : Decidable (s.Whole event) := by
  unfold Whole
  cases s.pc <;> infer_instance

end State

/-- What the peers do in any order, with one of these handlers for each message. -/
def system (handlers : OnMessage δ → Prop) (allowed : State δ → Event → Prop) :
    Labelled (State δ) Event where
  init s := s = State.start δ
  step s event t := allowed s event ∧ ∃ onMessage, handlers onMessage ∧ s.next onMessage event = some t

/-! ## What the peers read -/

/-- How a peer takes the next message off its connection, when it knows its signature. -/
def readMessage (signature : List Char) (queue : Queue) :
    Except Wire.DemarshalError (Wire.Closure × Queue) :=
  let size := (parseHeader queue.bytes).size
  match Wire.wlConnectionDemarshal size signature queue.bytes queue.fds with
  | .error e => .error e
  | .ok (closure, fds) => .ok (closure, ⟨queue.bytes.drop size, fds⟩)

/-- A message of a known signature. -/
abbrev Signed := List Char × Wire.Closure

def Sending.signed (sending : Sending) : Signed := (signature sending.message, sending.closure)

def ProxyMessage.signed (msg : ProxyMessage) : Signed := (signature msg.message, msg.closure)

/-- What has been put into a connection is read by the peer as these messages, whatever comes
next. -/
def Reads (queue : Queue) (messages : List Signed) : Prop :=
  ∀ later, readFields readMessage (messages.map Prod.fst) (queue ++ later) =
    .ok (messages.map Prod.snd, later)

namespace State

def sentTo (s : State δ) (dst : Side) : List Sending := s.sent.filter fun x => x.dst = dst

def heardFrom (s : State δ) (src : Side) : List ProxyMessage := s.heard.filter fun msg => msg.src = src

end State

end Stratus.Capture.Forward
