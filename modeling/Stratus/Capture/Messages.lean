import Stratus.Capture.Objects
import Stratus.Lib.Transition

/-! Runs of the Capture module: clients connect, send messages and disconnect, and
the encode queue frees frames. -/
namespace Stratus.Capture

open Stratus.Lib Proxy

/-- The messages with a handler in `message_handlers`, and all others.  The object
that a message creates has been entered by the proxy before the handler runs. -/
inductive Request where
  | createPool (id : Nat) (size : Int)
  | poolDestroy (sender : Nat)
  | createBuffer (sender id : Nat) (offset width height stride : Int) (format : Nat)
  | createParams (id : Nat)
  | paramsAdd (sender plane offset stride modifierHi modifierLo : Nat)
  | createImmed (sender id : Nat) (width height : Int) (format : Nat)
  | paramsDestroy (sender : Nat)
  | bufferRelease (sender : Nat)
  | bufferDestroy (sender : Nat)
  | createSurface (id : Nat)
  | surfaceAttach (sender buf : Nat) (x y : Int)
  | surfaceCommit (sender : Nat)
  | surfaceDestroy (sender : Nat)
  | other (created : Option (Nat × Interface))

/-- The new id of a message and its interface. -/
def Request.created : Request → Option (Nat × Interface)
  | .createPool id _ => some (id, .wlShmPool)
  | .createBuffer _ id _ _ _ _ _ => some (id, .wlBuffer)
  | .createParams id => some (id, .zwpLinuxBufferParamsV1)
  | .createImmed _ id _ _ _ => some (id, .wlBuffer)
  | .createSurface id => some (id, .wlSurface)
  | .other created => created
  | _ => none

namespace CaptureSession

def handler (c : CaptureSession) (k : Nat) (env : Env) :
    Request → Except Fault (CaptureSession × Action)
  | .createPool id size => c.wlShmCreatePool k env id size
  | .poolDestroy sender => c.wlShmPoolDestroy k sender
  | .createBuffer sender id offset width height stride format =>
      c.wlShmPoolCreateBuffer k env sender id offset width height stride format
  | .createParams id => c.zwpLinuxDmabufCreateParams k env id
  | .paramsAdd sender plane offset stride modifierHi modifierLo =>
      c.zwpLinuxBufferParamsAdd k env sender plane offset stride modifierHi modifierLo
  | .createImmed sender id width height format =>
      c.zwpLinuxBufferParamsCreateImmed k env sender id width height format
  | .paramsDestroy sender => c.zwpLinuxBufferParamsDestroy k sender
  | .bufferRelease sender => .ok (c.wlBufferReleaseEvent k sender)
  | .bufferDestroy sender => c.wlBufferDestroy k sender
  | .createSurface id => c.wlCompositorCreateSurface k env id
  | .surfaceAttach sender buf x y => c.wlSurfaceAttach k sender buf x y
  | .surfaceCommit sender => c.wlSurfaceCommit k env sender
  | .surfaceDestroy sender => c.wlSurfaceDestroy k sender
  | .other _ => .ok (c, .forward)

/-- `handle_message`. -/
def handleMessage (c : CaptureSession) (k : Nat) (env : Env) (r : Request) :
    Except Fault (CaptureSession × Action) := do
  let c ← c.freeFrames env.expired
  c.handler k env r

def setSession (c : CaptureSession) (k : Nat) (s : Option (Session Addr)) : CaptureSession :=
  { c with sessions := fun i => if i = k then s else c.sessions i }

/-- `proxy_handle_message` for one session; it returns -1 when the new id cannot be
entered. -/
def proxyMessage (c : CaptureSession) (k : Nat) (env : Env) (r : Request) :
    Except Fault CaptureSession :=
  match c.sessions k with
  | none => throw .memory
  | some s =>
      match r.created with
      | none => Prod.fst <$> c.handleMessage k env r
      | some (id, interface) =>
          match proxyCreateObject s id (some interface) with
          | .error _ => return c
          | .ok s => Prod.fst <$> (c.setSession k (some s)).handleMessage k env r

/-! ### Session teardown -/

/-- The handler of an interface's `destroy` request. -/
def destroyHandler (c : CaptureSession) (k id : Nat) :
    Interface → Except Fault (CaptureSession × Action)
  | .wlBuffer => c.wlBufferDestroy k id
  | .wlSurface => c.wlSurfaceDestroy k id
  | .wlShmPool => c.wlShmPoolDestroy k id
  | .zwpLinuxBufferParamsV1 => c.zwpLinuxBufferParamsDestroy k id
  | _ => .ok (c, .forward)

def objType (c : CaptureSession) (k id : Nat) : Option Interface :=
  (c.sessions k).bind fun s => s.objTypes.lookup id

def destroyObject (c : CaptureSession) (k : Nat) (expired : List Nat) (id : Nat) :
    Except Fault CaptureSession :=
  match c.objType k id with
  | none => throw .memory
  | some interface =>
      if interface.methods.any fun method => method.name = "destroy" then do
        let c ← c.freeFrames expired
        let (c, action) ← c.destroyHandler k id interface
        if action = .err ∨ ((c.objData k).lookup id).isSome then
          throw (.assertion .destroyObject)
        return c
      else throw (.assertion .destroyObject)

/-- `for_each_helper` with `destroy_object`, on one of the two arrays of the map. -/
def destroyEntries (entries : WlMap Addr → List (Option Addr)) (k : Nat)
    (expired : Nat → List Nat) : List Nat → CaptureSession → Except Fault CaptureSession
  | [], c => return c
  | idx :: rest, c =>
      match (entries (c.objData k))[idx]?.join with
      | none => destroyEntries entries k expired rest c
      | some _ => do
          let c ← c.destroyObject k (expired idx) idx
          destroyEntries entries k expired rest c

/-- `proxy_destroy_session` with `handle_session_destroy`. -/
def sessionDestroy (c : CaptureSession) (k : Nat) (expired : Nat → List Nat) :
    Except Fault CaptureSession := do
  let c ← destroyEntries WlMap.client k expired (List.range (c.objData k).client.length) c
  let c ← destroyEntries WlMap.server k expired (List.range (c.objData k).server.length) c
  return c.setSession k none

/-! ### The system -/

inductive Op where
  | connect (k : Nat)
  | message (k : Nat) (env : Env) (r : Request)
  | disconnect (k : Nat) (expired : Nat → List Nat)
  | freeQueued (frames : List Nat)

def perform (c : CaptureSession) : Op → Except Fault CaptureSession
  | .connect k => .ok (c.setSession k (some (Session.create Addr)))
  | .message k env r => c.proxyMessage k env r
  | .disconnect k expired => c.sessionDestroy k expired
  | .freeQueued frames => c.freeFrames frames

/-- `id` is the id of an object of this interface that has not been destroyed. -/
def Live (c : CaptureSession) (k id : Nat) (interface : Interface) : Prop :=
  c.objType k id = some interface ∧ ((c.objData k).lookup id).isSome

/-- `id` may be chosen for a new object. -/
structure Unused (c : CaptureSession) (k id : Nat) : Prop where
  pos : id ≠ 0
  range : id < serverIdStart
  free : (c.objData k).lookup id = none

/-- What the Wayland protocol asks of a client: messages go to live objects, new ids
are unused, object arguments have the declared interface. -/
def Conforms (c : CaptureSession) (k : Nat) : Request → Prop
  | .createPool id _ => c.Unused k id
  | .poolDestroy sender => c.Live k sender .wlShmPool
  | .createBuffer sender id _ _ _ _ _ => c.Live k sender .wlShmPool ∧ c.Unused k id
  | .createParams id => c.Unused k id
  | .paramsAdd sender _ _ _ _ _ => c.Live k sender .zwpLinuxBufferParamsV1
  | .createImmed sender id _ _ _ => c.Live k sender .zwpLinuxBufferParamsV1 ∧ c.Unused k id
  | .paramsDestroy sender => c.Live k sender .zwpLinuxBufferParamsV1
  | .bufferRelease sender => c.objType k sender = some .wlBuffer
  | .bufferDestroy sender => c.objType k sender = some .wlBuffer
  | .createSurface id => c.Unused k id
  | .surfaceAttach sender buf _ _ => c.Live k sender .wlSurface ∧
      (buf = 0 ∨ c.objType k buf = some .wlBuffer)
  | .surfaceCommit sender => c.Live k sender .wlSurface
  | .surfaceDestroy sender => c.Live k sender .wlSurface
  | .other created => ∀ x ∈ created, (c.objData k).lookup x.1 = none

/-- Sessions are opened once and used while they are open. -/
def Allowed (c : CaptureSession) : Op → Prop
  | .connect k => c.sessions k = none
  | .message k _ r => (c.sessions k).isSome ∧ c.Conforms k r
  | .disconnect k _ => (c.sessions k).isSome
  | .freeQueued _ => True

def system (width height : Nat) : System CaptureSession where
  init c := c = start width height
  step c c' := ∃ op, c.Allowed op ∧ c.perform op = .ok c'

end CaptureSession

end Stratus.Capture
