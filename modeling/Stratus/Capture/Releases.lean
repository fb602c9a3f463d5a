import Stratus.Capture.LifeCycleRuns
import Stratus.Capture.ReleaseEvents

/-! The release of buffers in every run of the Capture module. -/
namespace Stratus.Capture

open Stratus.Lib Proxy

namespace CaptureSession

/-! ### What sends nothing -/

/-- Nothing is sent, and the queue is left alone. -/
structure Silent (c c' : CaptureSession) : Prop where
  released : c'.released = c.released
  queue : c'.queue = c.queue

theorem Silent.refl (c : CaptureSession) : Silent c c := ⟨rfl, rfl⟩

theorem Silent.trans {c c' c'' : CaptureSession} (h : Silent c c') (h' : Silent c' c'') :
    Silent c c'' :=
  ⟨h'.released.trans h.released, h'.queue.trans h.queue⟩

/-- A function that sends nothing when it succeeds. -/
def Silently {α : Type} (c : CaptureSession) (state : α → CaptureSession) (r : Except Fault α) : Prop :=
  ∀ x, r = .ok x → Silent c (state x)

section Silently

variable {α β : Type} {c : CaptureSession} {state : α → CaptureSession}

theorem Silently.ok {x : α} (h : Silent c (state x)) : Silently c state (.ok x) := by
  rintro _ ⟨⟩
  exact h

theorem Silently.error (fault : Fault) : Silently c state (.error fault) := nofun

theorem Silently.bind {r : Except Fault β} {f : β → Except Fault α}
    (h : ∀ b, r = .ok b → Silently c state (f b)) : Silently c state (r >>= f) := by
  cases r with
  | error fault => exact nofun
  | ok b => exact h b rfl

theorem Silently.after {c₁ : CaptureSession} {r : Except Fault α} (hr : Silently c₁ state r)
    (h : Silent c c₁) : Silently c state r :=
  fun x hx => h.trans (hr x hx)

/-- A function goes on after another that sends nothing. -/
theorem Silently.andThen {state' : β → CaptureSession} {r : Except Fault β} {f : β → Except Fault α}
    (hr : Silently c state' r) (h : ∀ b, Silently (state' b) state (f b)) :
    Silently c state (r >>= f) :=
  .bind fun b hb x hx => (hr b hb).trans (h b x hx)

end Silently

section Frees

variable (c : CaptureSession) (a : Addr)

theorem wlShmPoolFree_silent : Silently c id (c.wlShmPoolFree a) := by
  unfold wlShmPoolFree
  refine .bind fun p _ => ?_
  split
  · exact .ok ⟨rfl, rfl⟩
  · exact .error _

theorem wlShmBufferFree_silent (buf : ShmBuffer) : Silently c id (c.wlShmBufferFree buf) := by
  unfold wlShmBufferFree
  refine .bind fun p _ => .bind fun dependents _ => ?_
  dsimp only
  split
  · exact (wlShmPoolFree_silent _ _).after ⟨rfl, rfl⟩
  · exact .ok ⟨rfl, rfl⟩

theorem wlBufferFree_silent : Silently c id (c.wlBufferFree a) := by
  unfold wlBufferFree
  refine .bind fun b _ => ?_
  split
  · cases b.shmBuf with
    | none => exact .ok ⟨rfl, rfl⟩
    | some buf => exact (wlShmBufferFree_silent c buf).andThen fun c' => .ok ⟨rfl, rfl⟩
  · exact .error _

theorem wlSurfaceUnattach_silent : Silently c id (c.wlSurfaceUnattach a) := by
  unfold wlSurfaceUnattach
  refine .bind fun s _ => ?_
  split
  · exact .ok ⟨rfl, rfl⟩
  · refine .bind fun b _ => .bind fun dependents _ => ?_
    dsimp only
    split
    · refine .bind fun c' hfree => ?_
      have h := wlBufferFree_silent _ _ c' hfree
      exact .ok ⟨h.released, h.queue⟩
    · exact .ok ⟨rfl, rfl⟩

theorem wlSurfaceFree_silent : Silently c id (c.wlSurfaceFree a) := by
  unfold wlSurfaceFree
  refine .bind fun s _ => ?_
  split
  · exact .ok ⟨rfl, rfl⟩
  · exact .error _

end Frees

section Handlers

variable (c : CaptureSession) (k : Nat) (env : Env)

theorem register_silent (id : Nat) (o : Obj) : Silently c Prod.fst (c.register k id o) := by
  unfold register
  split
  · exact .error _
  · split
    · exact .ok ⟨rfl, rfl⟩
    · exact .ok ⟨rfl, rfl⟩

theorem wlBufferDestroy_silent (sender : Nat) : Silently c Prod.fst (c.wlBufferDestroy k sender) := by
  unfold wlBufferDestroy
  split
  · exact .ok ⟨rfl, rfl⟩
  · refine .bind fun b _ => ?_
    dsimp only
    split
    · exact .error _
    · split
      · refine .bind fun c' hfree => ?_
        have h := wlBufferFree_silent _ _ c' hfree
        exact .ok ⟨h.released, h.queue⟩
      · exact .ok ⟨rfl, rfl⟩

theorem wlSurfaceAttach_silent (sender buf : Nat) (x y : Int) :
    Silently c Prod.fst (c.wlSurfaceAttach k sender buf x y) := by
  unfold wlSurfaceAttach
  split
  · exact .error _
  · refine .bind fun c₁ hunattach => .bind fun s _ => ?_
    have hsilent := wlSurfaceUnattach_silent _ _ c₁ hunattach
    dsimp only
    split
    · exact .ok (hsilent.trans ⟨rfl, rfl⟩)
    · split
      · refine .bind fun b _ => ?_
        exact .ok (hsilent.trans ⟨rfl, rfl⟩)
      · exact .error _

theorem wlSurfaceDestroy_silent (sender : Nat) :
    Silently c Prod.fst (c.wlSurfaceDestroy k sender) := by
  unfold wlSurfaceDestroy
  split
  · exact .error _
  · refine .bind fun s _ => ?_
    dsimp only
    split
    · exact .error _
    · refine .bind fun c₁ hunattach => .bind fun s _ => ?_
      have h := wlSurfaceUnattach_silent _ _ c₁ hunattach
      have hsilent : Silent c c₁ := ⟨h.released, h.queue⟩
      split
      · refine .bind fun c₂ hfree => ?_
        exact .ok (hsilent.trans (wlSurfaceFree_silent _ _ c₂ hfree))
      · exact .ok hsilent

theorem wlShmPoolDestroy_silent (sender : Nat) :
    Silently c Prod.fst (c.wlShmPoolDestroy k sender) := by
  unfold wlShmPoolDestroy
  split
  · exact .error _
  · refine .bind fun p _ => ?_
    dsimp only
    split
    · exact .error _
    · split
      · refine .bind fun c' hfree => ?_
        have h := wlShmPoolFree_silent _ _ c' hfree
        exact .ok ⟨h.released, h.queue⟩
      · exact .ok ⟨rfl, rfl⟩

theorem wlShmPoolCreateBuffer_silent (sender id : Nat) (offset width height stride : Int)
    (format : Nat) :
    Silently c Prod.fst (c.wlShmPoolCreateBuffer k env sender id offset width height stride format) := by
  unfold wlShmPoolCreateBuffer
  split
  · split
    · exact .error _
    · refine .bind fun p _ => ?_
      dsimp only
      split
      · exact (register_silent _ _ _ _).after ⟨rfl, rfl⟩
      · exact .error _
  · exact .ok ⟨rfl, rfl⟩

theorem zwpLinuxBufferParamsAdd_silent (sender plane offset stride modifierHi modifierLo : Nat) :
    Silently c Prod.fst
      (c.zwpLinuxBufferParamsAdd k env sender plane offset stride modifierHi modifierLo) := by
  unfold zwpLinuxBufferParamsAdd
  split
  · exact .error _
  · refine .bind fun p _ => ?_
    split
    · split <;> exact .ok ⟨rfl, rfl⟩
    · exact .error _

theorem zwpLinuxBufferParamsCreateImmed_silent (sender id : Nat) (width height : Int) (format : Nat) :
    Silently c Prod.fst (c.zwpLinuxBufferParamsCreateImmed k env sender id width height format) := by
  unfold zwpLinuxBufferParamsCreateImmed
  split
  · exact .error _
  · refine .bind fun p _ => ?_
    dsimp only
    split
    · exact .ok ⟨rfl, rfl⟩
    · split
      · exact (register_silent _ _ _ _).after ⟨rfl, rfl⟩
      · exact .error _

theorem zwpLinuxBufferParamsDestroy_silent (sender : Nat) :
    Silently c Prod.fst (c.zwpLinuxBufferParamsDestroy k sender) := by
  unfold zwpLinuxBufferParamsDestroy
  split
  · exact .error _
  · refine .bind fun p _ => ?_
    exact .ok ⟨rfl, rfl⟩

/-- No handler but that of a commit sends anything. -/
theorem handler_silent {r : Request} (hr : ∀ sender, r ≠ .surfaceCommit sender) :
    Silently c Prod.fst (c.handler k env r) := by
  cases r with
  | createPool id size =>
      change Silently c Prod.fst (c.wlShmCreatePool k env id size)
      unfold wlShmCreatePool
      split
      · exact register_silent c k _ _
      · exact .ok ⟨rfl, rfl⟩
  | poolDestroy sender => exact wlShmPoolDestroy_silent c k sender
  | createBuffer sender id offset width height stride format =>
      exact wlShmPoolCreateBuffer_silent c k env sender id offset width height stride format
  | createParams id =>
      change Silently c Prod.fst (c.zwpLinuxDmabufCreateParams k env id)
      unfold zwpLinuxDmabufCreateParams
      split
      · exact register_silent c k _ _
      · exact .ok ⟨rfl, rfl⟩
  | paramsAdd sender plane offset stride modifierHi modifierLo =>
      exact zwpLinuxBufferParamsAdd_silent c k env sender plane offset stride modifierHi modifierLo
  | createImmed sender id width height format =>
      exact zwpLinuxBufferParamsCreateImmed_silent c k env sender id width height format
  | paramsDestroy sender => exact zwpLinuxBufferParamsDestroy_silent c k sender
  | bufferRelease sender =>
      refine .ok ?_
      unfold wlBufferReleaseEvent
      split <;> exact ⟨rfl, rfl⟩
  | bufferDestroy sender => exact wlBufferDestroy_silent c k sender
  | createSurface id =>
      change Silently c Prod.fst (c.wlCompositorCreateSurface k env id)
      unfold wlCompositorCreateSurface
      split
      · exact register_silent c k _ _
      · exact .ok ⟨rfl, rfl⟩
  | surfaceAttach sender buf x y => exact wlSurfaceAttach_silent c k sender buf x y
  | surfaceCommit sender => exact absurd rfl (hr sender)
  | surfaceDestroy sender => exact wlSurfaceDestroy_silent c k sender
  | other created => exact .ok ⟨rfl, rfl⟩

theorem destroyHandler_silent (id : Nat) (interface : Interface) :
    Silently c Prod.fst (c.destroyHandler k id interface) := by
  unfold destroyHandler
  split
  · exact wlBufferDestroy_silent c k id
  · exact wlSurfaceDestroy_silent c k id
  · exact wlShmPoolDestroy_silent c k id
  · exact zwpLinuxBufferParamsDestroy_silent c k id
  · exact .ok ⟨rfl, rfl⟩

end Handlers

end CaptureSession

end Stratus.Capture
