import Stratus.Capture.Protocol
import Stratus.Capture.WlMap
import Stratus.Lib.Transition

/-! `proxy_handle_message`: the table of object interfaces that the proxy keeps for a
session, and the interfaces that the protocol itself gives the objects. -/
namespace Stratus.Capture.Proxy

open Stratus.Lib

/-- The peer a message comes from. -/
inductive Side where
  | client
  | server
deriving DecidableEq

/-- One argument of a `struct wl_closure`. -/
inductive Arg where
  | word (value : Nat)
  | string (value : Option String)
  | object (id : Nat)
  | newId (id : Nat)
  | array (bytes : List UInt8)
  | fd
deriving DecidableEq

/-- What `wl_connection_demarshal` checks of an argument. -/
def ArgDecl.accepts : ArgDecl → Arg → Bool
  | .int, .word _ => true
  | .uint, .word _ => true
  | .fixed, .word _ => true
  | .string nullable, .string value => nullable || value.isSome
  | .object _ nullable, .object id => nullable || id != 0
  | .newId _, .newId id => id != 0
  | .array, .array _ => true
  | .fd, .fd => true
  | _, _ => false

/-- A message on the wire: its sender object, opcode and arguments. -/
structure Incoming where
  side : Side
  id : Nat
  opcode : Nat
  args : List Arg

structure Closure where
  interface : Interface
  message : Message
  args : List Arg

/-- `closure->args[i].s` and `closure->args[i].n`. -/
def Closure.stringArg (c : Closure) (i : Nat) : String :=
  match c.args[i]? with
  | some (.string (some value)) => value
  | _ => ""

def Closure.idArg (c : Closure) (i : Nat) : Nat :=
  match c.args[i]? with
  | some (.newId id) => id
  | _ => 0

/-- The maps of a `struct proxy_session`.  What the handlers store for an object is
up to them. -/
structure Session (δ : Type) where
  objTypes : WlMap Interface
  objData : WlMap δ

inductive Action where
  | forward
  | drop
  | err
deriving DecidableEq

/-- The caller's `on_message`, which has access to the object data, and
`wl_closure_send`. -/
structure Handler (δ : Type) where
  onMessage : WlMap δ → Closure → WlMap δ × Action
  send : Closure → Bool

/-- Why `proxy_handle_message` does not return 0: a failed assertion or -1. -/
inductive Failure where
  | noInterface
  | noMessage
  | demarshal
  | mapInsert
  | unknownGlobal
  | handler
  | droppedNewObject
  | send
deriving DecidableEq

variable {δ : Type}

/-- `proxy_create_session`: id 1 is the display. -/
def Session.create (δ : Type) : Session δ where
  objTypes := { client := [none, some .wlDisplay], server := [] }
  objData := { client := [none, none], server := [] }

def Interface.messages (interface : Interface) : Side → List Message
  | .client => interface.methods
  | .server => interface.events

/-- The new ids among the arguments that a signature announces as such. -/
def newIds (signature : List ArgDecl) (args : List Arg) : List Nat :=
  (signature.zip args).filterMap fun pair =>
    match pair with
    | (.newId _, .newId id) => some id
    | _ => none

/-- `wl_connection_demarshal`, which also reserves the new ids in the map. -/
def demarshal (types : WlMap Interface) (message : Message) (args : List Arg) :
    Except Failure (WlMap Interface) :=
  if args.length = message.signature.length ∧
      (message.signature.zip args).all fun pair => pair.1.accepts pair.2 then
    .ok ((newIds message.signature args).foldl WlMap.reserveNew types)
  else .error .demarshal

/-- `proxy_create_object`. -/
def proxyCreateObject (s : Session δ) (id : Nat) (interface : Option Interface) :
    Except Failure (Session δ) :=
  match s.objTypes.insertAt id interface with
  | none => .error .mapInsert
  | some types =>
      match s.objData.insertAt id none with
      | none => .error .mapInsert
      | some data => .ok { objTypes := types, objData := data }

/-- The loop over the signature; every new object gets `message.types[0]`. -/
def createObjects (interface : Option Interface) : List Nat → Session δ → Except Failure (Session δ)
  | [], s => .ok s
  | id :: rest, s => do
      let s ← proxyCreateObject s id interface
      createObjects interface rest s

/-- The objects that a message creates, and whether there are any. -/
def registerObjects (s : Session δ) (closure : Closure) : Except Failure (Session δ × Bool) :=
  if closure.interface.name = "wl_registry" ∧ closure.message.name = "bind" then
    match proxyLookupInterface (closure.stringArg 1) with
    | none => .error .unknownGlobal
    | some interface => do
        let s ← proxyCreateObject s (closure.idArg 3) (some interface)
        return (s, true)
  else do
    let ids := newIds closure.message.signature closure.args
    let s ← createObjects (closure.message.types.headD none) ids s
    return (s, !ids.isEmpty)

/-- The end of `proxy_handle_message`, after the objects have been created. -/
def dispatch (handler : Handler δ) (s : Session δ) (closure : Closure) (newObjects : Bool) :
    Except Failure (Session δ) :=
  let (data, action) := handler.onMessage s.objData closure
  match action with
  | .err => .error .handler
  | .drop => if newObjects then .error .droppedNewObject else .ok { s with objData := data }
  | .forward => if handler.send closure then .ok { s with objData := data } else .error .send

def proxyHandleMessage (handler : Handler δ) (s : Session δ) (m : Incoming) :
    Except Failure (Session δ) :=
  match s.objTypes.lookup m.id with
  | none => .error .noInterface
  | some interface =>
      match (interface.messages m.side)[m.opcode]? with
      | none => .error .noMessage
      | some message => do
          let types ← demarshal s.objTypes message m.args
          let s := { s with objTypes := types }
          let closure : Closure := ⟨interface, message, m.args⟩
          if interface.name = "wl_registry" ∧ message.name = "global" ∧
              proxyLookupInterface (closure.stringArg 1) = none then
            return s
          else
            let (s, newObjects) ← registerObjects s closure
            dispatch handler s closure newObjects

/-! ## What the protocol says -/

/-- The interface of each object, for the peers. -/
abbrev Objects := Nat → Option Interface

def Objects.start : Objects := fun id => if id = 1 then some .wlDisplay else none

/-- The declaration of a message, found with the interface of its object. -/
def Objects.declaration (objects : Objects) (m : Incoming) : Option (Interface × Message) := do
  let interface ← objects m.id
  let message ← (interface.messages m.side)[m.opcode]?
  return (interface, message)

/-- The arguments are the ones the declaration asks for. -/
def WellFormedMessage (objects : Objects) (m : Incoming) : Prop :=
  ∃ interface message, objects.declaration m = some (interface, message) ∧
    m.args.length = message.signature.length ∧
    (message.signature.zip m.args).all fun pair => pair.1.accepts pair.2

/-- Object `id` is introduced by an argument of `m` and has this interface: the one
declared for that argument, or for `wl_registry.bind` the one that is named. -/
def Introduces (objects : Objects) (m : Incoming) (id : Nat) (interface : Interface) : Prop :=
  ∃ sender message, objects.declaration m = some (sender, message) ∧
    ((sender = .wlRegistry ∧ message.name = "bind" ∧ m.args[3]? = some (.newId id) ∧
        m.args[1]? = some (.string (some interface.name))) ∨
      ∃ k : Nat, message.signature[k]? = some (ArgDecl.newId (some interface)) ∧
        m.args[k]? = some (Arg.newId id))

/-- `objects'` is what is known after `m`. -/
structure Follows (objects : Objects) (m : Incoming) (objects' : Objects) : Prop where
  introduced : ∀ id interface, Introduces objects m id interface → objects' id = some interface
  others : ∀ id, (∀ interface, ¬ Introduces objects m id interface) → objects' id = objects id

/-- The step of the proxy's table from `s` to `s'` is the one that `m` calls for. -/
structure Mirrors (objects : Objects) (m : Incoming) (s s' : Session δ) : Prop where
  introduced : ∀ id interface, Introduces objects m id interface →
    s'.objTypes.lookup id = some interface
  others : ∀ id, (∀ interface, ¬ Introduces objects m id interface) →
    s'.objTypes.lookup id = s.objTypes.lookup id

/-- The request `wp_presentation.feedback`. -/
def IsFeedback (objects : Objects) (m : Incoming) : Prop :=
  objects m.id = some .wpPresentation ∧ m.side = .client ∧ m.opcode = 1

/-- Well-formed messages that are allowed, one after the other, each handled with
result 0. -/
def tableSystem (handler : Handler δ) (allowed : Objects → Incoming → Prop) :
    System (Objects × Session δ) where
  init x := x = (Objects.start, Session.create δ)
  step x y := ∃ m, WellFormedMessage x.1 m ∧ allowed x.1 m ∧ Follows x.1 m y.1 ∧
    proxyHandleMessage handler x.2 m = .ok y.2

end Stratus.Capture.Proxy
