import Stratus.Capture.Messages
import Stratus.Lib.Outcome

/-! What the operations of the Capture module can do to its heap and its queue, as a sequence of
single changes. -/
namespace Stratus.Capture

open Stratus.Lib Proxy

/-- What no handler changes in an object, once it is there: the objects without their names, their
counters and what is attached. -/
def Obj.body : Obj → Obj
  | .surface _ => .surface { id := 0, buf := none, dependents := 0 }
  | .buffer b => .buffer { b with id := 0, dependents := 0 }
  | .pool p => .pool { p with id := 0, dependents := 0 }
  | .params p => .params p

/-- A request that has to do with the planes of a params object. -/
def Request.OfPlanes : Request → Prop
  | .paramsAdd _ _ _ _ _ _ => True
  | .createImmed _ _ _ _ _ => True
  | _ => False

/-- The objects that a request can bring about, planes apart. -/
def Request.Makes : Request → CaptureSession → Obj → Prop
  | .createPool _ size, _, o => ∃ p, o = .pool p ∧ p.size = size
  | .createBuffer _ _ offset width height stride _, c, o => ∃ b buf p, o = .buffer b ∧
      b.width = width ∧ b.height = height ∧ b.dmaBuf = none ∧ b.shmBuf = some buf ∧
      buf.stride = stride ∧ c.heap.objs buf.pool = some (.pool p) ∧ buf.p = p.p + offset
  | .createParams _, _, o => ∃ p, o = .params p ∧ p.numPlanes = 0 ∧
      p.planes = List.replicate 4 { fd := -1, offset := 0, stride := 0 }
  | .createSurface _, _, o => ∃ s, o = .surface s
  | _, _, _ => False

namespace CaptureSession

/-- The objects that an operation can bring about. -/
def Op.Makes : Op → CaptureSession → Obj → Prop
  | .message _ _ r => r.Makes
  | _ => fun _ _ => False

/-- A single change, where objects of some kind may be made.  The last one is of what is not looked
at here. -/
inductive Change (made : CaptureSession → Obj → Prop) : CaptureSession → CaptureSession → Prop where
  | write {c : CaptureSession} {a : Addr} {o o' : Obj} (ho : c.heap.objs a = some o)
      (hbody : o'.body = o.body) : Change made c (c.write a o')
  | free {c : CaptureSession} {a : Addr} {o : Obj} (ho : c.heap.objs a = some o) :
      Change made c (c.free a o)
  | alloc {c : CaptureSession} (k : Nat) {o : Obj} (hmade : made c o) : Change made c (c.alloc k o)
  | unqueue {c : CaptureSession} (i : Nat) : Change made c { c with queue := c.queue.eraseIdx i }
  | push {c : CaptureSession} {a : Addr} {b : Buffer} (k : Nat) (hb : c.heap.objs a = some (.buffer b))
      (haccepts : c.accepts b = true) :
      Change made c { c with queue := c.queue ++ [frameOf b a k] }
  | other {c c' : CaptureSession} (heap : c'.heap = c.heap) (freed : c'.freed = c.freed)
      (queue : c'.queue = c.queue) (width : c'.width = c.width) (height : c'.height = c.height) :
      Change made c c'

abbrev Changes (made : CaptureSession → Obj → Prop) := Relation.ReflTransGen (Change made)

variable {made : CaptureSession → Obj → Prop} {c : CaptureSession} {a : Addr}

theorem readSurface_ok {s : Surface} (h : c.readSurface a = .ok s) :
    c.heap.objs a = some (.surface s) := by
  unfold readSurface at h
  split at h
  · next hs =>
    obtain rfl := Except.ok.inj h
    exact hs
  · cases h

theorem readBuffer_ok {b : Buffer} (h : c.readBuffer a = .ok b) :
    c.heap.objs a = some (.buffer b) := by
  unfold readBuffer at h
  split at h
  · next hb =>
    obtain rfl := Except.ok.inj h
    exact hb
  · cases h

theorem readPool_ok {p : Pool} (h : c.readPool a = .ok p) : c.heap.objs a = some (.pool p) := by
  unfold readPool at h
  split at h
  · next hp =>
    obtain rfl := Except.ok.inj h
    exact hp
  · cases h

theorem readParams_ok {p : Params} (h : c.readParams a = .ok p) :
    c.heap.objs a = some (.params p) := by
  unfold readParams at h
  split at h
  · next hp =>
    obtain rfl := Except.ok.inj h
    exact hp
  · cases h

theorem Changes.setObjData (c : CaptureSession) (k : Nat) (m : WlMap Addr) :
    Changes made c (c.setObjData k m) := .single (.other rfl rfl rfl rfl rfl)

theorem Changes.setSession (c : CaptureSession) (k : Nat) (s : Option (Session Addr)) :
    Changes made c (c.setSession k s) := .single (.other rfl rfl rfl rfl rfl)

/-! ### Freeing -/

theorem wlShmPoolFree_changes (c : CaptureSession) (a : Addr) :
    Ends (Changes made) c id (c.wlShmPoolFree a) := by
  unfold wlShmPoolFree
  refine .bind fun p hp => ?_
  split
  · exact .ok (.single (.free (readPool_ok hp)))
  · exact .error _

theorem wlShmBufferFree_changes (c : CaptureSession) (buf : ShmBuffer) :
    Ends (Changes made) c id (c.wlShmBufferFree buf) := by
  unfold wlShmBufferFree
  refine .bind fun p hp => .bind fun dependents _ => ?_
  have hwrite : Changes made c (c.write buf.pool (.pool { p with dependents := dependents })) :=
    .single (.write (readPool_ok hp) rfl)
  dsimp only
  split
  · exact (wlShmPoolFree_changes _ _).after hwrite
  · exact .ok hwrite

/-- Nothing but the pool of the buffer is touched. -/
theorem wlShmBufferFree_frame {c c' : CaptureSession} {buf : ShmBuffer}
    (h : c.wlShmBufferFree buf = .ok c') :
    (∃ p, c.heap.objs buf.pool = some (.pool p)) ∧
      ∀ x, x ≠ buf.pool → c'.heap.objs x = c.heap.objs x := by
  unfold wlShmBufferFree at h
  obtain ⟨p, hp, h⟩ := bind_ok h
  obtain ⟨dependents, -, h⟩ := bind_ok h
  refine ⟨⟨p, readPool_ok hp⟩, fun x hx => ?_⟩
  dsimp only at h
  split at h
  · unfold wlShmPoolFree at h
    obtain ⟨p', -, h⟩ := bind_ok h
    split at h
    · obtain rfl := Except.ok.inj h
      exact (Heap.objs_set_ne hx _ _).trans (Heap.objs_set_ne hx _ _)
    · cases h
  · obtain rfl := Except.ok.inj h
    exact Heap.objs_set_ne hx _ _

theorem wlBufferFree_changes (c : CaptureSession) (a : Addr) :
    Ends (Changes made) c id (c.wlBufferFree a) := by
  unfold wlBufferFree
  refine .bind fun b hb => ?_
  split
  · cases b.shmBuf with
    | none => exact .ok (.single (.free (readBuffer_ok hb)))
    | some buf =>
        refine (wlShmBufferFree_changes c buf).andThen fun c' hc' => ?_
        obtain ⟨⟨p, hp⟩, hframe⟩ := wlShmBufferFree_frame hc'
        have hne : a ≠ buf.pool := by
          rintro rfl
          rw [readBuffer_ok hb] at hp
          cases hp
        exact .ok (.single (.free ((hframe a hne).trans (readBuffer_ok hb))))
  · exact .error _

/-- Surfaces are left alone. -/
theorem wlBufferFree_frame {c c' : CaptureSession} (h : c.wlBufferFree a = .ok c') {x : Addr}
    {s : Surface} (hs : c.heap.objs x = some (.surface s)) : c'.heap.objs x = some (.surface s) := by
  unfold wlBufferFree at h
  obtain ⟨b, hb, h⟩ := bind_ok h
  have hne : x ≠ a := by
    rintro rfl
    rw [readBuffer_ok hb] at hs
    cases hs
  split at h
  · cases hshm : b.shmBuf with
    | none =>
        rw [hshm] at h
        obtain rfl := Except.ok.inj h
        exact (Heap.objs_set_ne hne _ _).trans hs
    | some buf =>
        rw [hshm] at h
        obtain ⟨c₁, hc₁, h⟩ := bind_ok h
        obtain rfl := Except.ok.inj h
        obtain ⟨⟨p, hp⟩, hframe⟩ := wlShmBufferFree_frame hc₁
        refine (Heap.objs_set_ne hne _ _).trans ((hframe x ?_).trans hs)
        rintro rfl
        rw [hp] at hs
        cases hs
  · cases h

theorem wlBufferRelease_changes (c : CaptureSession) (a : Addr) (conn : Nat) :
    Ends (Changes made) c id (c.wlBufferRelease a conn) := by
  have hlast (b : Buffer) (c₁ : CaptureSession) (h₁ : Changes made c c₁) : Ends (Changes made) c id
      (if b.id = 0 ∧ b.dependents = 0 then c₁.wlBufferFree a else .ok c₁) := by
    split
    · exact (wlBufferFree_changes c₁ a).after h₁
    · exact .ok h₁
  unfold wlBufferRelease
  refine .bind fun b _ => ?_
  dsimp only
  split
  · exact hlast b c .refl
  · split
    · exact hlast b _ (.single (.other rfl rfl rfl rfl rfl))
    · exact .error _

theorem freeFrame_changes (c : CaptureSession) (f : Frame) : Ends (Changes made) c id (c.freeFrame f) := by
  unfold freeFrame
  refine .bind fun b hb => .bind fun dependents _ => ?_
  exact (wlBufferRelease_changes _ _ _).after (.single (.write (readBuffer_ok hb) rfl))

theorem freeFrames_changes (c : CaptureSession) (places : List Nat) :
    Ends (Changes made) c id (c.freeFrames places) := by
  induction places generalizing c with
  | nil => exact .ok .refl
  | cons i rest ih =>
      unfold freeFrames
      split
      · exact ih c
      · next f _ =>
        exact (freeFrame_changes c f).andThen fun c' _ => (ih _).after (.single (.unqueue i))

/-! ### Bodies -/

theorem body_write {c : CaptureSession} {o o' : Obj} (ho : c.heap.objs a = some o)
    (hbody : o'.body = o.body) (x : Addr) :
    ((c.write a o').heap.objs x).map Obj.body = (c.heap.objs x).map Obj.body := by
  rw [write, Heap.objs_set ho]
  split
  · next hx => rw [hx, ho, Option.map_some, Option.map_some, hbody]
  · rfl

/-- An object keeps its body as long as it is there, and an address is not used again. -/
theorem Change.body {c c' : CaptureSession} (h : Change made c c') {x : Addr} {body : Obj}
    (hlt : x < c.heap.next) (hbody : ∀ o, c.heap.objs x = some o → o.body = body) :
    x < c'.heap.next ∧ ∀ o, c'.heap.objs x = some o → o.body = body := by
  cases h with
  | @write a o o' ho hsame =>
      refine ⟨hlt, fun o₁ ho₁ => ?_⟩
      have hmap := body_write ho hsame x
      rw [ho₁] at hmap
      obtain ⟨o₂, ho₂, heq⟩ := Option.map_eq_some_iff.mp hmap.symm
      exact heq.symm.trans (hbody o₂ ho₂)
  | @free a o ho =>
      refine ⟨hlt, fun o₁ ho₁ => hbody o₁ ?_⟩
      rw [CaptureSession.free, Heap.objs_set ho] at ho₁
      split at ho₁
      · cases ho₁
      · exact ho₁
  | alloc k hmade =>
      refine ⟨Nat.lt_succ_of_lt hlt, fun o₁ ho₁ => hbody o₁ ?_⟩
      rw [CaptureSession.alloc, Heap.objs_alloc, if_neg (Nat.ne_of_lt hlt)] at ho₁
      exact ho₁
  | unqueue i => exact ⟨hlt, hbody⟩
  | push k hb haccepts => exact ⟨hlt, hbody⟩
  | other heap => exact ⟨heap ▸ hlt, heap ▸ hbody⟩

theorem Changes.mono {made' : CaptureSession → Obj → Prop} {c c' : CaptureSession}
    (hmono : ∀ c o, made c o → made' c o) (h : Changes made c c') : Changes made' c c' := by
  have hle : Change made ≤ Change made' := by
    intro c c' hstep
    cases hstep with
    | write ho hbody => exact .write ho hbody
    | free ho => exact .free ho
    | alloc k hmade => exact .alloc k (hmono _ _ hmade)
    | unqueue i => exact .unqueue i
    | push k hb haccepts => exact .push k hb haccepts
    | other heap freed queue width height => exact .other heap freed queue width height
  exact Relation.ReflTransGen.mono hle _ _ h

theorem Changes.body {c c' : CaptureSession} (h : Changes made c c') {x : Addr} {o o' : Obj}
    (ho : c.heap.objs x = some o) (ho' : c'.heap.objs x = some o') : o'.body = o.body := by
  have hkept := kept_of_steps (fun c : CaptureSession => x < c.heap.next ∧
      ∀ o', c.heap.objs x = some o' → o'.body = o.body) h
    (fun _ _ hstep hholds => hstep.body hholds.1 hholds.2)
    ⟨Heap.lt_next ho, fun o' ho' => by rw [ho] at ho'; rw [Option.some.inj ho']⟩
  exact hkept.2 o' ho'

theorem Changes.size {c c' : CaptureSession} (h : Changes made c c') :
    c'.width = c.width ∧ c'.height = c.height := by
  refine kept_of_steps (fun c' => c'.width = c.width ∧ c'.height = c.height) h ?_ ⟨rfl, rfl⟩
  intro c₁ c₂ hstep hsize
  cases hstep with
  | other _ _ _ width height => exact ⟨width.trans hsize.1, height.trans hsize.2⟩
  | _ => exact hsize

/-! ### Handlers -/

theorem wlSurfaceUnattach_changes (c : CaptureSession) (surf : Addr) :
    Ends (Changes made) c id (c.wlSurfaceUnattach surf) := by
  unfold wlSurfaceUnattach
  refine .bind fun s hs => ?_
  have hs := readSurface_ok hs
  split
  · exact .ok .refl
  · next a _ =>
    refine .bind fun b hb => .bind fun dependents _ => ?_
    have hb := readBuffer_ok hb
    have hwrite : Changes made c (c.write a (.buffer { b with dependents := dependents })) :=
      .single (.write hb rfl)
    have hs' : (c.write a (.buffer { b with dependents := dependents })).heap.objs surf =
        some (.surface s) := by
      refine (Heap.objs_set_ne ?_ _ _).trans hs
      rintro rfl
      rw [hb] at hs
      cases hs
    dsimp only
    split
    · refine (wlBufferFree_changes _ a).after hwrite |>.andThen fun c' hfree => ?_
      exact .ok (.single (.write (wlBufferFree_frame hfree hs') rfl))
    · exact .ok (hwrite.tail (.write hs' rfl))

theorem wlSurfaceFree_changes (c : CaptureSession) (a : Addr) :
    Ends (Changes made) c id (c.wlSurfaceFree a) := by
  unfold wlSurfaceFree
  refine .bind fun s hs => ?_
  split
  · exact .ok (.single (.free (readSurface_ok hs)))
  · exact .error _

/-- A frame is queued, of a buffer that is still there afterwards. -/
theorem pushFrame_changes {c c' : CaptureSession} {env : Env} {a : Addr} {b b' : Buffer} {k : Nat}
    (hb : c.heap.objs a = some (.buffer b)) (haccepts : c.accepts b = true)
    (hpush : c.pushFrame env (frameOf b a k) = .ok c') (hb' : c'.heap.objs a = some (.buffer b')) :
    Changes made c c' := by
  unfold pushFrame at hpush
  obtain ⟨c₁, hc₁, hpush⟩ := bind_ok hpush
  obtain rfl := Except.ok.inj hpush
  have h₁ : Changes made c c₁ := freeFrames_changes c _ c₁ hc₁
  have hbody : (Obj.buffer b').body = (Obj.buffer b).body := h₁.body hb hb'
  simp only [Obj.body, Obj.buffer.injEq, Buffer.mk.injEq] at hbody
  obtain ⟨-, hwidth, hheight, hshm, hdma, -⟩ := hbody
  have hframe : frameOf b a k = frameOf b' a k := by rw [frameOf, frameOf, hwidth, hshm, hdma]
  have haccepts' : c₁.accepts b' = true := by
    rw [accepts, h₁.size.1, h₁.size.2, hwidth, hheight]
    exact haccepts
  rw [hframe]
  exact h₁.tail (.push k hb' haccepts')

section Handlers

variable (c : CaptureSession) (k : Nat) (env : Env)

theorem register_changes (id : Nat) {o : Obj} (hmade : made c o) :
    Ends (Changes made) c Prod.fst (c.register k id o) := by
  unfold register
  split
  · exact .error _
  · split
    · exact .ok .refl
    · exact .ok (.tail (.single (.alloc k hmade)) (.other rfl rfl rfl rfl rfl))

theorem wlBufferDestroy_changes (sender : Nat) :
    Ends (Changes made) c Prod.fst (c.wlBufferDestroy k sender) := by
  unfold wlBufferDestroy
  split
  · exact .ok .refl
  · next a _ =>
    refine .bind fun b hb => ?_
    have hwrite : Changes made c ((c.setObjData k ((c.objData k).remove b.id)).write a
        (.buffer { b with id := 0 })) :=
      (Changes.setObjData c k _).tail (.write (readBuffer_ok hb) rfl)
    dsimp only
    split
    · exact .error _
    · split
      · exact ((wlBufferFree_changes _ a).after hwrite).andThen fun c' _ => .ok .refl
      · exact .ok hwrite

theorem wlSurfaceAttach_changes (sender buf : Nat) (x y : Int) :
    Ends (Changes made) c Prod.fst (c.wlSurfaceAttach k sender buf x y) := by
  unfold wlSurfaceAttach
  split
  · exact .error _
  · next surf _ =>
    refine (wlSurfaceUnattach_changes c surf).andThen fun c₁ _ => .bind fun s hs => ?_
    have hwrite : Changes made c₁ (c₁.write surf (.surface { s with buf := (c.objData k).lookup buf })) :=
      .single (.write (readSurface_ok hs) rfl)
    dsimp only
    split
    · exact .ok hwrite
    · split
      · exact .bind fun b hb => .ok (hwrite.tail (.write (readBuffer_ok hb) rfl))
      · exact .error _

theorem wlSurfaceCommit_changes (sender : Nat) :
    Ends (Changes made) c Prod.fst (c.wlSurfaceCommit k env sender) := by
  unfold wlSurfaceCommit
  split
  · exact .error _
  · next surf _ =>
    refine .bind fun s _ => ?_
    split
    · exact .ok .refl
    · next a _ =>
      refine .bind fun b hb => ?_
      dsimp only
      split
      · next haccepts =>
        split
        · exact .error _
        · split
          · exact .ok .refl
          · refine .bind fun c₁ hpush => .bind fun b' hb' => ?_
            have h₁ : Changes made c c₁ :=
              pushFrame_changes (readBuffer_ok hb) haccepts hpush (readBuffer_ok hb')
            have h₂ : Changes made c (c₁.write a (.buffer { b' with dependents := b'.dependents + 1 })) :=
              h₁.tail (.write (readBuffer_ok hb') rfl)
            have h₃ : Changes made c { c₁.write a (.buffer { b' with dependents := b'.dependents + 1 }) with
                frameCount := c₁.frameCount + 1 } := h₂.tail (.other rfl rfl rfl rfl rfl)
            exact ((wlSurfaceUnattach_changes _ surf).after h₃).andThen fun _ _ => .ok .refl
      · refine (wlBufferRelease_changes c a k).andThen fun c₁ _ => ?_
        split
        · exact (wlSurfaceUnattach_changes c₁ surf).andThen fun _ _ => .ok .refl
        · exact .ok .refl

theorem wlSurfaceDestroy_changes (sender : Nat) :
    Ends (Changes made) c Prod.fst (c.wlSurfaceDestroy k sender) := by
  unfold wlSurfaceDestroy
  split
  · exact .error _
  · next surf _ =>
    refine .bind fun s hs => ?_
    have hwrite : Changes made c ((c.setObjData k ((c.objData k).remove sender)).write surf
        (.surface { s with id := 0 })) :=
      (Changes.setObjData c k _).tail (.write (readSurface_ok hs) rfl)
    dsimp only
    split
    · exact .error _
    · refine ((wlSurfaceUnattach_changes _ surf).after hwrite).andThen fun c₁ _ => .bind fun s _ => ?_
      split
      · exact (wlSurfaceFree_changes c₁ surf).andThen fun _ _ => .ok .refl
      · exact .ok .refl

theorem wlShmPoolDestroy_changes (sender : Nat) :
    Ends (Changes made) c Prod.fst (c.wlShmPoolDestroy k sender) := by
  unfold wlShmPoolDestroy
  split
  · exact .error _
  · next a _ =>
    refine .bind fun p hp => ?_
    have hwrite : Changes made c ((c.setObjData k ((c.objData k).remove p.id)).write a
        (.pool { p with id := 0 })) :=
      (Changes.setObjData c k _).tail (.write (readPool_ok hp) rfl)
    dsimp only
    split
    · exact .error _
    · split
      · exact ((wlShmPoolFree_changes _ a).after hwrite).andThen fun _ _ => .ok .refl
      · exact .ok hwrite

theorem wlShmPoolCreateBuffer_changes (sender id : Nat) (offset width height stride : Int)
    (format : Nat) :
    Ends (Changes (Request.createBuffer sender id offset width height stride format).Makes) c Prod.fst
      (c.wlShmPoolCreateBuffer k env sender id offset width height stride format) := by
  unfold wlShmPoolCreateBuffer
  split
  · split
    · exact .error _
    · next a _ =>
      refine .bind fun p hp => ?_
      have hp := readPool_ok hp
      dsimp only
      split
      · refine (register_changes _ k id ?_).after (.single (.write hp rfl))
        refine ⟨_, _, { p with dependents := p.dependents + 1 }, rfl, rfl, rfl, rfl, rfl, rfl, ?_, rfl⟩
        rw [write, Heap.objs_set hp]
        exact if_pos rfl
      · exact .error _
  · exact .ok .refl

theorem zwpLinuxBufferParamsDestroy_changes (sender : Nat) :
    Ends (Changes made) c Prod.fst (c.zwpLinuxBufferParamsDestroy k sender) := by
  unfold zwpLinuxBufferParamsDestroy
  split
  · exact .error _
  · refine .bind fun p hp => .ok ?_
    exact (Changes.setObjData c k _).tail (.free (readParams_ok hp))

theorem handler_changes {r : Request} (hr : ¬ r.OfPlanes) :
    Ends (Changes r.Makes) c Prod.fst (c.handler k env r) := by
  cases r with
  | createPool id size =>
      change Ends _ c Prod.fst (c.wlShmCreatePool k env id size)
      unfold wlShmCreatePool
      split
      · exact register_changes c k id ⟨_, rfl, rfl⟩
      · exact .ok .refl
  | poolDestroy sender => exact wlShmPoolDestroy_changes c k sender
  | createBuffer sender id offset width height stride format =>
      exact wlShmPoolCreateBuffer_changes c k env sender id offset width height stride format
  | createParams id =>
      change Ends _ c Prod.fst (c.zwpLinuxDmabufCreateParams k env id)
      unfold zwpLinuxDmabufCreateParams
      split
      · exact register_changes c k id ⟨_, rfl, rfl, rfl⟩
      · exact .ok .refl
  | paramsAdd _ _ _ _ _ _ => exact absurd trivial hr
  | createImmed _ _ _ _ _ => exact absurd trivial hr
  | paramsDestroy sender => exact zwpLinuxBufferParamsDestroy_changes c k sender
  | bufferRelease sender =>
      refine .ok ?_
      unfold wlBufferReleaseEvent
      split <;> exact .refl
  | bufferDestroy sender => exact wlBufferDestroy_changes c k sender
  | createSurface id =>
      change Ends _ c Prod.fst (c.wlCompositorCreateSurface k env id)
      unfold wlCompositorCreateSurface
      split
      · exact register_changes c k id ⟨_, rfl⟩
      · exact .ok .refl
  | surfaceAttach sender buf x y => exact wlSurfaceAttach_changes c k sender buf x y
  | surfaceCommit sender => exact wlSurfaceCommit_changes c k env sender
  | surfaceDestroy sender => exact wlSurfaceDestroy_changes c k sender
  | other created => exact .ok .refl

theorem destroyHandler_changes (id : Nat) (interface : Interface) :
    Ends (Changes made) c Prod.fst (c.destroyHandler k id interface) := by
  unfold destroyHandler
  split
  · exact wlBufferDestroy_changes c k id
  · exact wlSurfaceDestroy_changes c k id
  · exact wlShmPoolDestroy_changes c k id
  · exact zwpLinuxBufferParamsDestroy_changes c k id
  · exact .ok .refl

/-! ### Operations -/

theorem destroyObject_changes (expired : List Nat) (sender : Nat) :
    Ends (Changes made) c id (c.destroyObject k expired sender) := by
  unfold destroyObject
  split
  · exact .error _
  · split
    · refine (freeFrames_changes c expired).andThen fun c₁ _ => ?_
      refine (destroyHandler_changes c₁ k sender _).andThen fun result _ => ?_
      dsimp only
      split
      · exact .error _
      · exact .ok .refl
    · exact .error _

theorem destroyEntries_changes (entries : WlMap Addr → List (Option Addr)) (expired : Nat → List Nat)
    (ids : List Nat) : Ends (Changes made) c id (destroyEntries entries k expired ids c) := by
  induction ids generalizing c with
  | nil => exact .ok .refl
  | cons idx rest ih =>
      unfold destroyEntries
      split
      · exact ih c
      · exact (destroyObject_changes c k (expired idx) idx).andThen fun c₁ _ => ih c₁

theorem sessionDestroy_changes (expired : Nat → List Nat) :
    Ends (Changes made) c id (c.sessionDestroy k expired) := by
  unfold sessionDestroy
  refine (destroyEntries_changes c k WlMap.client expired _).andThen fun c₁ _ => ?_
  refine (destroyEntries_changes c₁ k WlMap.server expired _).andThen fun c₂ _ => ?_
  exact .ok (Changes.setSession c₂ k none)

end Handlers

/-- What happens up to the handler of a request. -/
theorem proxyMessage_ok {c c' : CaptureSession} {k : Nat} {env : Env} {r : Request}
    (h : c.proxyMessage k env r = .ok c') :
    Changes made c c' ∨ ∃ c₁ action, Changes made c c₁ ∧ c₁.handler k env r = .ok (c', action) := by
  have hmessage {c₀ : CaptureSession} (h₀ : Changes made c c₀)
      (h : Prod.fst <$> c₀.handleMessage k env r = .ok c') :
      ∃ c₁ action, Changes made c c₁ ∧ c₁.handler k env r = .ok (c', action) := by
    cases hr : c₀.handleMessage k env r with
    | error fault =>
        rw [hr] at h
        cases h
    | ok result =>
        rw [hr] at h
        obtain rfl := Except.ok.inj h
        obtain ⟨c₁, hc₁, hhandler⟩ := bind_ok hr
        exact ⟨c₁, result.2, h₀.trans (freeFrames_changes c₀ _ c₁ hc₁), hhandler⟩
  unfold proxyMessage at h
  split at h
  · cases h
  · split at h
    · exact .inr (hmessage .refl h)
    · split at h
      · obtain rfl := Except.ok.inj h
        exact .inl .refl
      · exact .inr (hmessage (.setSession c k _) h)

/-- An operation is made of single changes, but for the requests about planes. -/
theorem perform_changes {c c' : CaptureSession} {op : Op}
    (hop : ∀ k env r, op = .message k env r → ¬ r.OfPlanes) (h : c.perform op = .ok c') :
    Changes op.Makes c c' := by
  cases op with
  | connect k =>
      obtain rfl := Except.ok.inj h
      exact .setSession c k _
  | message k env r =>
      obtain hquiet | ⟨c₁, action, h₁, hhandler⟩ := proxyMessage_ok h
      · exact hquiet
      · exact h₁.trans (handler_changes c₁ k env (hop k env r rfl) _ hhandler)
  | disconnect k expired => exact sessionDestroy_changes c k expired c' h
  | freeQueued places => exact freeFrames_changes c places c' h

end CaptureSession

end Stratus.Capture
