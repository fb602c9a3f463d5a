import Stratus.Capture.ProxyMessage
import Stratus.Lib.Heap
import Stratus.Lib.Word

/-! The objects that the Capture module keeps for its clients and the handlers of
`video-output.c`, `shm-buffers.c` and `dma-buffers.c`.  An address is a pointer; what
`free` has been called with is not on the heap any more, so using it is a fault. -/
namespace Stratus.Capture

open Stratus.Lib Proxy

abbrev Addr := Nat

structure Surface where
  id : Nat
  buf : Option Addr
  dependents : Nat

structure Pool where
  id : Nat
  p : Int
  size : Int
  dependents : Nat

structure ShmBuffer where
  p : Int
  stride : Int
  pool : Addr

/-- `fd` is -1 when the plane has not been added or was handed over. -/
structure Plane where
  fd : Int
  offset : Nat
  stride : Nat

structure DmaBuffer where
  width : Int
  height : Int
  format : Nat
  modifier : Nat
  planes : List Plane

structure Buffer where
  id : Nat
  width : Int
  height : Int
  shmBuf : Option ShmBuffer
  dmaBuf : Option DmaBuffer
  dependents : Nat

structure Params where
  id : Nat
  numPlanes : Nat
  planes : List Plane
  modifier : Nat

inductive Obj where
  | surface (s : Surface)
  | buffer (b : Buffer)
  | pool (p : Pool)
  | params (p : Params)

namespace Obj

def id : Obj → Nat
  | .surface s => s.id
  | .buffer b => b.id
  | .pool p => p.id
  | .params p => p.id

/-- A params object has no such field; nothing refers to it. -/
def dependents : Obj → Nat
  | .surface s => s.dependents
  | .buffer b => b.dependents
  | .pool p => p.dependents
  | .params _ => 0

def interface : Obj → Interface
  | .surface _ => .wlSurface
  | .buffer _ => .wlBuffer
  | .pool _ => .wlShmPool
  | .params _ => .zwpLinuxBufferParamsV1

/-- The counted references that an object holds. -/
def refs : Obj → List Addr
  | .surface s => s.buf.toList
  | .buffer b => (b.shmBuf.map ShmBuffer.pool).toList
  | .pool _ => []
  | .params _ => []

end Obj

/-- A `struct video_encode_queue_frame`; `conn` is the session whose connection it
points to. -/
structure Frame where
  shmData : Option Int
  dmaData : Option DmaBuffer
  stride : Int
  buf : Addr
  conn : Nat

/-- The assertions about the life cycle of objects, by the function they stand in. -/
inductive Assertion where
  | wlBufferFree
  | wlBufferDestroy
  | wlSurfaceFree
  | wlSurfaceDestroy
  | wlSurfaceAttach
  | wlSurfaceCommit
  | wlShmPoolFree
  | wlShmPoolDestroy
  | wlShmPoolCreateBuffer
  | zwpLinuxBufferParamsAdd
  | zwpLinuxBufferParamsCreateImmed
  | newObject
  | destroyObject

/-- How a handler can go wrong. -/
inductive Fault where
  | assertion (a : Assertion)
  /-- A use of freed memory, of `NULL` or of an object of another kind. -/
  | memory
  /-- A counter that is 0 is decremented. -/
  | underflow
  /-- A request the module does not support: an attach offset, a pixel format, a
  plane index, more than four planes. -/
  | unsupported

/-- The module's state.  The last three fields are the history: the session each
object was created in, the release events sent, and what has been freed. -/
structure CaptureSession where
  width : Nat
  height : Nat
  heap : Heap Obj
  sessions : Nat → Option (Session Addr)
  queue : List Frame
  frameCount : Nat
  owner : Addr → Nat
  released : List (Nat × Nat)
  freed : List (Addr × Obj)

namespace CaptureSession

def start (width height : Nat) : CaptureSession where
  width := width
  height := height
  heap := Heap.empty
  sessions _ := none
  queue := []
  frameCount := 0
  owner _ := 0
  released := []
  freed := []

/-- The `obj_data` map of a session. -/
def objData (c : CaptureSession) (k : Nat) : WlMap Addr :=
  match c.sessions k with
  | some s => s.objData
  | none => { client := [], server := [] }

def setObjData (c : CaptureSession) (k : Nat) (m : WlMap Addr) : CaptureSession :=
  { c with
    sessions := fun i => if i = k then (c.sessions k).map fun s => { s with objData := m }
      else c.sessions i }

def write (c : CaptureSession) (a : Addr) (o : Obj) : CaptureSession :=
  { c with heap := c.heap.set a (some o) }

def free (c : CaptureSession) (a : Addr) (o : Obj) : CaptureSession :=
  { c with heap := c.heap.set a none, freed := c.freed ++ [(a, o)] }

/-- Allocate an object for session `k`. -/
def alloc (c : CaptureSession) (k : Nat) (o : Obj) : CaptureSession :=
  { c with
    heap := c.heap.alloc o
    owner := fun a => if a = c.heap.next then k else c.owner a }

def readSurface (c : CaptureSession) (a : Addr) : Except Fault Surface :=
  match c.heap.objs a with
  | some (.surface s) => .ok s
  | _ => .error .memory

def readBuffer (c : CaptureSession) (a : Addr) : Except Fault Buffer :=
  match c.heap.objs a with
  | some (.buffer b) => .ok b
  | _ => .error .memory

def readPool (c : CaptureSession) (a : Addr) : Except Fault Pool :=
  match c.heap.objs a with
  | some (.pool p) => .ok p
  | _ => .error .memory

def readParams (c : CaptureSession) (a : Addr) : Except Fault Params :=
  match c.heap.objs a with
  | some (.params p) => .ok p
  | _ => .error .memory

def decrement : Nat → Except Fault Nat
  | 0 => .error .underflow
  | n + 1 => .ok n

/-! ### Freeing -/

def wlShmPoolFree (c : CaptureSession) (a : Addr) : Except Fault CaptureSession := do
  let p ← c.readPool a
  if p.id = 0 ∧ p.dependents = 0 then return c.free a (.pool p)
  else throw (.assertion .wlShmPoolFree)

def wlShmBufferFree (c : CaptureSession) (buf : ShmBuffer) : Except Fault CaptureSession := do
  let p ← c.readPool buf.pool
  let dependents ← decrement p.dependents
  let c := c.write buf.pool (.pool { p with dependents := dependents })
  if p.id = 0 ∧ dependents = 0 then wlShmPoolFree c buf.pool else return c

def wlBufferFree (c : CaptureSession) (a : Addr) : Except Fault CaptureSession := do
  let b ← c.readBuffer a
  if b.id = 0 ∧ b.dependents = 0 then
    let c ← match b.shmBuf with
      | some buf => wlShmBufferFree c buf
      | none => pure c
    return c.free a (.buffer b)
  else throw (.assertion .wlBufferFree)

/-- `_wl_buffer_release`.  The event goes out on a connection that must exist. -/
def wlBufferRelease (c : CaptureSession) (a : Addr) (conn : Nat) : Except Fault CaptureSession := do
  let b ← c.readBuffer a
  let c ←
    if b.id = 0 then pure c
    else if (c.sessions conn).isSome then pure { c with released := c.released ++ [(conn, b.id)] }
    else throw .memory
  if b.id = 0 ∧ b.dependents = 0 then wlBufferFree c a else return c

def freeFrame (c : CaptureSession) (f : Frame) : Except Fault CaptureSession := do
  let b ← c.readBuffer f.buf
  let dependents ← decrement b.dependents
  wlBufferRelease (c.write f.buf (.buffer { b with dependents := dependents })) f.buf f.conn

/-- The queue calls `free_frame` on frames of its choice, each given by its place. -/
def freeFrames (c : CaptureSession) : List Nat → Except Fault CaptureSession
  | [] => return c
  | i :: rest =>
      match c.queue[i]? with
      | none => freeFrames c rest
      | some f => do
          let c ← freeFrame c f
          freeFrames { c with queue := c.queue.eraseIdx i } rest

/-! ### Handlers -/

/-- The answers of the system and of the queue to a handler. -/
structure Env where
  expired : List Nat
  malloc : Bool
  mmap : Option Int
  dup : Option Int
  full : Bool
  pushExpired : List Nat
  sent : Bool

/-- The end of every creating handler: enter a new object in the map. -/
def register (c : CaptureSession) (k id : Nat) (o : Obj) : Except Fault (CaptureSession × Action) :=
  match (c.objData k).lookup id with
  | some _ => .error (.assertion .newObject)
  | none =>
      match (c.objData k).insertAt id (some c.heap.next) with
      | none => .ok (c, .err)
      | some m => .ok ((c.alloc k o).setObjData k m, .forward)

def wlBufferDestroy (c : CaptureSession) (k sender : Nat) :
    Except Fault (CaptureSession × Action) :=
  match (c.objData k).lookup sender with
  | none => return (c, .forward)
  | some a => do
      let b ← c.readBuffer a
      if b.id = 0 then throw (.assertion .wlBufferDestroy)
      let c := (c.setObjData k ((c.objData k).remove b.id)).write a (.buffer { b with id := 0 })
      let c ← if b.dependents = 0 then wlBufferFree c a else pure c
      return (c, .forward)

def wlBufferReleaseEvent (c : CaptureSession) (k sender : Nat) : CaptureSession × Action :=
  match (c.objData k).lookup sender with
  | some _ => (c, .drop)
  | none => (c, .forward)

def wlCompositorCreateSurface (c : CaptureSession) (k : Nat) (env : Env) (id : Nat) :
    Except Fault (CaptureSession × Action) :=
  if env.malloc then register c k id (.surface { id := id, buf := none, dependents := 0 })
  else return (c, .err)

def wlSurfaceUnattach (c : CaptureSession) (surf : Addr) : Except Fault CaptureSession := do
  let s ← c.readSurface surf
  match s.buf with
  | none => return c
  | some a =>
      let b ← c.readBuffer a
      let dependents ← decrement b.dependents
      let c := c.write a (.buffer { b with dependents := dependents })
      let c ← if b.id = 0 ∧ dependents = 0 then wlBufferFree c a else pure c
      return c.write surf (.surface { s with buf := none })

def wlSurfaceAttach (c : CaptureSession) (k sender buf : Nat) (x y : Int) :
    Except Fault (CaptureSession × Action) :=
  match (c.objData k).lookup sender with
  | none => throw (.assertion .wlSurfaceAttach)
  | some surf => do
      let found := (c.objData k).lookup buf
      let c ← wlSurfaceUnattach c surf
      let s ← c.readSurface surf
      let c := c.write surf (.surface { s with buf := found })
      match found with
      | none => return (c, .forward)
      | some a =>
          if x = 0 ∧ y = 0 then
            let b ← c.readBuffer a
            return (c.write a (.buffer { b with dependents := b.dependents + 1 }), .forward)
          else throw .unsupported

/-- `int32_t` seen as `uint32_t`. -/
def unsigned (x : Int) : Nat := (x % 2 ^ 32).toNat

/-- The size test of `wl_surface_commit`. -/
def accepts (c : CaptureSession) (b : Buffer) : Bool :=
  c.width ≤ unsigned b.width && c.height ≤ unsigned b.height &&
    unsigned b.width < (c.width + 8) % 2 ^ 32 && unsigned b.height < (c.height + 8) % 2 ^ 32

def frameOf (b : Buffer) (a : Addr) (k : Nat) : Frame where
  shmData := b.shmBuf.map ShmBuffer.p
  dmaData := if b.shmBuf.isSome then none else b.dmaBuf
  stride := cInt (b.width * 4)
  buf := a
  conn := k

/-- `rbuf_push` on a queue that is not full. -/
def pushFrame (c : CaptureSession) (env : Env) (f : Frame) : Except Fault CaptureSession := do
  let c ← freeFrames c env.pushExpired
  return { c with queue := c.queue ++ [f] }

def wlSurfaceCommit (c : CaptureSession) (k : Nat) (env : Env) (sender : Nat) :
    Except Fault (CaptureSession × Action) :=
  match (c.objData k).lookup sender with
  | none => throw (.assertion .wlSurfaceCommit)
  | some surf => do
      let s ← c.readSurface surf
      match s.buf with
      | none => return (c, .forward)
      | some a =>
          let b ← c.readBuffer a
          if accepts c b then
            if b.shmBuf.isNone = b.dmaBuf.isNone then throw (.assertion .wlSurfaceCommit)
            if !env.malloc || env.full then return (c, .err)
            let c ← pushFrame c env (frameOf b a k)
            let b ← c.readBuffer a
            let c := c.write a (.buffer { b with dependents := b.dependents + 1 })
            let c ← wlSurfaceUnattach { c with frameCount := c.frameCount + 1 } surf
            return (c, .forward)
          else
            let c ← wlBufferRelease c a k
            if env.sent then
              let c ← wlSurfaceUnattach c surf
              return (c, .forward)
            else return (c, .err)

def wlSurfaceFree (c : CaptureSession) (a : Addr) : Except Fault CaptureSession := do
  let s ← c.readSurface a
  if s.id = 0 then return c.free a (.surface s) else throw (.assertion .wlSurfaceFree)

def wlSurfaceDestroy (c : CaptureSession) (k sender : Nat) :
    Except Fault (CaptureSession × Action) :=
  match (c.objData k).lookup sender with
  | none => throw (.assertion .wlSurfaceDestroy)
  | some surf => do
      let s ← c.readSurface surf
      if s.id = 0 then throw (.assertion .wlSurfaceDestroy)
      let c := (c.setObjData k ((c.objData k).remove sender)).write surf
        (.surface { s with id := 0 })
      let c ← wlSurfaceUnattach c surf
      let s ← c.readSurface surf
      let c ← if s.dependents = 0 then wlSurfaceFree c surf else pure c
      return (c, .forward)

def wlShmCreatePool (c : CaptureSession) (k : Nat) (env : Env) (id : Nat) (size : Int) :
    Except Fault (CaptureSession × Action) :=
  match env.malloc, env.mmap with
  | true, some p => register c k id (.pool { id := id, p := p, size := size, dependents := 0 })
  | _, _ => return (c, .err)

def wlShmPoolDestroy (c : CaptureSession) (k sender : Nat) :
    Except Fault (CaptureSession × Action) :=
  match (c.objData k).lookup sender with
  | none => throw (.assertion .wlShmPoolDestroy)
  | some a => do
      let p ← c.readPool a
      if p.id = 0 then throw (.assertion .wlShmPoolDestroy)
      let c := (c.setObjData k ((c.objData k).remove p.id)).write a (.pool { p with id := 0 })
      let c ← if p.dependents = 0 then wlShmPoolFree c a else pure c
      return (c, .forward)

def wlShmPoolCreateBuffer (c : CaptureSession) (k : Nat) (env : Env) (sender id : Nat)
    (offset width height stride : Int) (format : Nat) : Except Fault (CaptureSession × Action) :=
  if env.malloc then
    match (c.objData k).lookup sender with
    | none => throw (.assertion .wlShmPoolCreateBuffer)
    | some a => do
        let p ← c.readPool a
        let c := c.write a (.pool { p with dependents := p.dependents + 1 })
        if format = 0 ∨ format = 1 then
          register c k id (.buffer
            { id := id
              width := width
              height := height
              shmBuf := some { p := p.p + offset, stride := stride, pool := a }
              dmaBuf := none
              dependents := 0 })
        else throw .unsupported
  else return (c, .err)

def zwpLinuxDmabufCreateParams (c : CaptureSession) (k : Nat) (env : Env) (id : Nat) :
    Except Fault (CaptureSession × Action) :=
  if env.malloc then
    register c k id (.params
      { id := id
        numPlanes := 0
        planes := List.replicate 4 { fd := -1, offset := 0, stride := 0 }
        modifier := 0 })
  else return (c, .err)

def zwpLinuxBufferParamsAdd (c : CaptureSession) (k : Nat) (env : Env) (sender plane offset stride
    modifierHi modifierLo : Nat) : Except Fault (CaptureSession × Action) :=
  match (c.objData k).lookup sender with
  | none => throw (.assertion .zwpLinuxBufferParamsAdd)
  | some a => do
      let p ← c.readParams a
      if plane < 4 then
        match env.dup with
        | none =>
            let old := p.planes.getD plane { fd := -1, offset := 0, stride := 0 }
            return (c.write a (.params
              { p with planes := p.planes.set plane { old with fd := -1 } }), .err)
        | some fd =>
            return (c.write a (.params
              { p with
                planes := p.planes.set plane { fd := fd, offset := offset, stride := stride }
                numPlanes := p.numPlanes + 1
                modifier := modifierHi * 2 ^ 32 + modifierLo }), .forward)
      else throw .unsupported

def zwpLinuxBufferParamsCreateImmed (c : CaptureSession) (k : Nat) (env : Env) (sender id : Nat)
    (width height : Int) (format : Nat) : Except Fault (CaptureSession × Action) :=
  match (c.objData k).lookup sender with
  | none => throw (.assertion .zwpLinuxBufferParamsCreateImmed)
  | some a => do
      let p ← c.readParams a
      if !env.malloc then return (c, .err)
      if p.numPlanes ≤ 4 then
        let c := c.write a (.params
          { p with planes := p.planes.map fun plane => { plane with fd := -1 } })
        register c k id (.buffer
          { id := id
            width := width
            height := height
            shmBuf := none
            dmaBuf := some
              { width := width
                height := height
                format := format
                modifier := p.modifier
                planes := p.planes.take p.numPlanes }
            dependents := 0 })
      else throw .unsupported

def zwpLinuxBufferParamsDestroy (c : CaptureSession) (k sender : Nat) :
    Except Fault (CaptureSession × Action) :=
  match (c.objData k).lookup sender with
  | none => throw .memory
  | some a => do
      let p ← c.readParams a
      return ((c.setObjData k ((c.objData k).remove p.id)).free a (.params p), .forward)

end CaptureSession

end Stratus.Capture
