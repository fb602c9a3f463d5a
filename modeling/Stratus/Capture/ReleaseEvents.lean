import Stratus.Capture.Messages
import Mathlib.Data.Multiset.AddSub

/-! What the Capture module does about the frames and the release of buffers, event by event.
The events of an operation follow the code and are looked up in the states that it goes
through; whether a buffer is alive is looked up in the maps of the sessions. -/
namespace Stratus.Capture

open Stratus.Lib Proxy

/-- The module has no more use for a buffer that was committed. -/
structure Handback where
  buf : Addr
  conn : Nat
  /-- The sessions that are open when it happens. -/
  sessions : Nat → Option (Session Addr)

namespace Handback

/-- The client has the buffer under an id. -/
def Alive (h : Handback) : Prop :=
  ∃ s id, h.sessions h.conn = some s ∧ s.objData.lookup id = some h.buf

/-- The release that there is to be, on the connection of the client. -/
def release (h : Handback) : Option (Nat × Nat) := do
  let s ← h.sessions h.conn
  let id ← s.objData.ids.find? fun id => s.objData.lookup id = some h.buf
  return (h.conn, id)

theorem release_eq_some {h : Handback} {x : Nat × Nat} (hx : h.release = some x) :
    x.1 = h.conn ∧ ∃ s, h.sessions h.conn = some s ∧ s.objData.lookup x.2 = some h.buf := by
  obtain ⟨s, hs, hfind⟩ := Option.bind_eq_some_iff.mp hx
  obtain ⟨id, hid, hpair⟩ := Option.bind_eq_some_iff.mp hfind
  cases hpair
  have hlookup := List.find?_some hid
  exact ⟨rfl, s, hs, of_decide_eq_true hlookup⟩

theorem release_isSome_iff (h : Handback) : h.release.isSome ↔ h.Alive := by
  constructor
  · intro hsome
    obtain ⟨x, hx⟩ := Option.isSome_iff_exists.mp hsome
    obtain ⟨-, s, hs, hlookup⟩ := release_eq_some hx
    exact ⟨s, x.2, hs, hlookup⟩
  · rintro ⟨s, id, hs, hlookup⟩
    have hfind : (s.objData.ids.find? fun id => s.objData.lookup id = some h.buf).isSome :=
      List.find?_isSome.mpr ⟨id, WlMap.mem_ids hlookup, decide_eq_true hlookup⟩
    obtain ⟨id', hid'⟩ := Option.isSome_iff_exists.mp hfind
    simp [release, hs, hid']

end Handback

inductive Event where
  /-- A commit takes a buffer from its surface and queues a frame. -/
  | queued (f : Frame)
  /-- A commit takes a buffer of the wrong size from its surface. -/
  | refused (h : Handback)
  /-- A frame is freed. -/
  | freed (f : Frame) (sessions : Nat → Option (Session Addr))
  /-- The release of a buffer of the wrong size cannot be sent; the surface keeps it. -/
  | unsent (h : Handback)

namespace Event

/-- The commits that take a buffer from a surface. -/
def taken : Event → Option (Addr × Nat)
  | .queued f => some (f.buf, f.conn)
  | .refused h => some (h.buf, h.conn)
  | .freed _ _ => none
  | .unsent _ => none

def queuedFrame : Event → Option Frame
  | .queued f => some f
  | _ => none

def freedFrame : Event → Option Frame
  | .freed f _ => some f
  | _ => none

def handback : Event → Option Handback
  | .queued _ => none
  | .refused h => some h
  | .freed f sessions => some { buf := f.buf, conn := f.conn, sessions := sessions }
  | .unsent h => some h

def release (e : Event) : Option (Nat × Nat) := e.handback.bind Handback.release

end Event

namespace CaptureSession

/-! ### The events of an operation -/

def freeEvents (c : CaptureSession) : List Nat → List Event
  | [] => []
  | i :: rest =>
      match c.queue[i]? with
      | none => freeEvents c rest
      | some f =>
          .freed f c.sessions ::
            match c.freeFrame f with
            | .ok c => freeEvents { c with queue := c.queue.eraseIdx i } rest
            | .error _ => []

/-- `wl_surface_commit` on a surface with a buffer. -/
def commitEvents (c : CaptureSession) (k : Nat) (env : Env) (a : Addr) (b : Buffer) : List Event :=
  if c.accepts b then
    if !env.malloc || env.full then []
    else c.freeEvents env.pushExpired ++ [.queued (frameOf b a k)]
  else if env.sent then [.refused { buf := a, conn := k, sessions := c.sessions }]
  else [.unsent { buf := a, conn := k, sessions := c.sessions }]

/-- The buffer that is attached to a surface. -/
def attachedBuffer (c : CaptureSession) (k sender : Nat) : Option (Addr × Buffer) :=
  match (c.objData k).lookup sender with
  | none => none
  | some surf =>
      match c.heap.objs surf with
      | some (.surface s) => s.buf.bind fun a =>
          match c.heap.objs a with
          | some (.buffer b) => some (a, b)
          | _ => none
      | _ => none

/-- Only a commit queues frames or releases a buffer at once. -/
def handlerEvents (c : CaptureSession) (k : Nat) (env : Env) : Request → List Event
  | .surfaceCommit sender =>
      match c.attachedBuffer k sender with
      | some (a, b) => c.commitEvents k env a b
      | none => []
  | _ => []

/-- `next` is taken in the state after the frames have been freed. -/
def afterFree (c : CaptureSession) (expired : List Nat) (next : CaptureSession → List Event) :
    List Event :=
  c.freeEvents expired ++
    match c.freeFrames expired with
    | .ok c => next c
    | .error _ => []

def messageEvents (c : CaptureSession) (k : Nat) (env : Env) (r : Request) : List Event :=
  match c.sessions k with
  | none => []
  | some s =>
      match r.created with
      | none => c.afterFree env.expired fun c => c.handlerEvents k env r
      | some (id, interface) =>
          match proxyCreateObject s id (some interface) with
          | .error _ => []
          | .ok s => (c.setSession k (some s)).afterFree env.expired fun c => c.handlerEvents k env r

/-- Every object that is destroyed is preceded by frames that are freed. -/
def destroyEvents (entries : WlMap Addr → List (Option Addr)) (k : Nat) (expired : Nat → List Nat) :
    List Nat → CaptureSession → List Event
  | [], _ => []
  | idx :: rest, c =>
      match (entries (c.objData k))[idx]?.join with
      | none => destroyEvents entries k expired rest c
      | some _ =>
          c.freeEvents (expired idx) ++
            match c.destroyObject k (expired idx) idx with
            | .ok c => destroyEvents entries k expired rest c
            | .error _ => []

def sessionEvents (c : CaptureSession) (k : Nat) (expired : Nat → List Nat) : List Event :=
  let client := List.range (c.objData k).client.length
  destroyEvents WlMap.client k expired client c ++
    match destroyEntries WlMap.client k expired client c with
    | .ok c => destroyEvents WlMap.server k expired (List.range (c.objData k).server.length) c
    | .error _ => []

def events (c : CaptureSession) : Op → List Event
  | .connect _ => []
  | .message k env r => c.messageEvents k env r
  | .disconnect k expired => c.sessionEvents k expired
  | .freeQueued frames => c.freeEvents frames

/-- The buffer that an operation takes from a surface, seen from outside. -/
def takes (c c' : CaptureSession) : Op → List (Addr × Nat)
  | .message k _ (.surfaceCommit sender) =>
      match (c.attachedBuffer k sender).map Prod.fst, c'.attachedBuffer k sender with
      | some a, none => [(a, k)]
      | _, _ => []
  | _ => []

/-- The runs of the module, with what has happened in them. -/
def loggedSystem (width height : Nat) : System (CaptureSession × List Event) where
  init x := x = (start width height, [])
  step x y := ∃ op, x.1.Allowed op ∧ x.1.perform op = .ok y.1 ∧ y.2 = x.2 ++ x.1.events op

end CaptureSession

end Stratus.Capture
