import Stratus.Capture.PlaneRequests

/-! The queued frames with the buffers and the pools that they point into, and the requests that
have brought these about. -/
namespace Stratus.Capture

open Stratus.Lib Proxy
open CaptureSession (Op Env Change Changes)

/-- Some client has made this request. -/
def Asked (trace : List Op) (r : Request) : Prop := ∃ k env, Op.message k env r ∈ trace

/-- A shm buffer of this size has been asked for. -/
def AskedShm (trace : List Op) (offset width height stride : Int) : Prop :=
  ∃ sender id format, Asked trace (.createBuffer sender id offset width height stride format)

theorem AskedShm.mono {trace trace' : List Op} {offset width height stride : Int}
    (hsub : trace ⊆ trace') (h : AskedShm trace offset width height stride) :
    AskedShm trace' offset width height stride := by
  obtain ⟨sender, id, format, k, env, hmem⟩ := h
  exact ⟨sender, id, format, k, env, hsub hmem⟩

namespace CaptureSession

/-- This object has been given the address, and keeps it until it is freed. -/
def Held (c : CaptureSession) (a : Addr) (o : Obj) : Prop :=
  a < c.heap.next ∧ ∀ o', c.heap.objs a = some o' → o'.body = o.body

/-- What is there has been asked for. -/
def Noted (trace : List Op) (c : CaptureSession) : Obj → Prop
  | .pool p => ∃ id, Asked trace (.createPool id p.size)
  | .buffer b =>
      (∀ buf, b.shmBuf = some buf → ∃ p offset, c.Held buf.pool (.pool p) ∧ buf.p = p.p + offset ∧
        AskedShm trace offset b.width b.height buf.stride) ∧
      ∀ d, b.dmaBuf = some d → d.width = b.width ∧ d.height = b.height
  | _ => True

/-- What `wl_surface_commit` has accepted is what the frame points to. -/
def Pictures (c : CaptureSession) (f : Frame) : Prop :=
  ∃ b, c.Held f.buf (.buffer b) ∧ f = frameOf b f.buf f.conn ∧ c.accepts b = true

structure Pictured (trace : List Op) (c : CaptureSession) : Prop where
  objects : ∀ a o, c.heap.objs a = some o → Noted trace c o
  frames : ∀ f ∈ c.queue, c.Pictures f

variable {trace trace' : List Op} {made : CaptureSession → Obj → Prop} {c c' : CaptureSession}
  {a : Addr} {o o' : Obj} {f : Frame}

theorem Held.intro (ho : c.heap.objs a = some o) : c.Held a o :=
  ⟨Heap.lt_next ho, fun o' ho' => by rw [ho] at ho'; rw [Option.some.inj ho']⟩

theorem Held.change (h : c.Held a o) (hchange : Change made c c') : c'.Held a o :=
  hchange.body h.1 h.2

/-- The object under the address is not a params object, or it is one that is left alone. -/
theorem Held.writeParams {p p' : Params} {a' : Addr} (h : c.Held a o)
    (hp : c.heap.objs a' = some (.params p)) (hparams : o.interface ≠ .zwpLinuxBufferParamsV1) :
    (c.write a' (.params p')).Held a o := by
  refine ⟨h.1, fun o' ho' => ?_⟩
  rw [write, Heap.objs_set hp] at ho'
  split at ho'
  · next ha =>
    have hbody := h.2 (.params p) (ha ▸ hp)
    cases o with
    | params q => exact absurd rfl hparams
    | _ => cases hbody
  · exact h.2 o' ho'

/-! ### What is noted -/

theorem Noted.mono (hsub : trace ⊆ trace') (h : Noted trace c o) : Noted trace' c o := by
  cases o with
  | pool p =>
      obtain ⟨id, k, env, hmem⟩ := h
      exact ⟨id, k, env, hsub hmem⟩
  | buffer b =>
      refine ⟨fun buf hbuf => ?_, h.2⟩
      obtain ⟨p, offset, hheld, hp, hasked⟩ := h.1 buf hbuf
      exact ⟨p, offset, hheld, hp, hasked.mono hsub⟩
  | _ => trivial

/-- It depends on the bodies alone, also of the pools. -/
theorem Noted.congr (h : Noted trace c o) (hbody : o'.body = o.body)
    (hheld : ∀ a p, c.Held a (.pool p) → c'.Held a (.pool p)) : Noted trace c' o' := by
  cases o' with
  | pool p' =>
      cases o with
      | pool p =>
          simp only [Obj.body, Obj.pool.injEq, Pool.mk.injEq] at hbody
          obtain ⟨-, -, hsize, -⟩ := hbody
          change ∃ id, Asked trace (.createPool id p'.size)
          rw [hsize]
          exact h
      | _ => cases hbody
  | buffer b' =>
      cases o with
      | buffer b =>
          simp only [Obj.body, Obj.buffer.injEq, Buffer.mk.injEq] at hbody
          obtain ⟨-, hwidth, hheight, hshm, hdma, -⟩ := hbody
          refine ⟨fun buf hbuf => ?_, fun d hd => ?_⟩
          · obtain ⟨p, offset, hp, heq, hasked⟩ := h.1 buf (hshm ▸ hbuf)
            rw [hwidth, hheight]
            exact ⟨p, offset, hheld _ _ hp, heq, hasked⟩
          · rw [hwidth, hheight]
            exact h.2 d (hdma ▸ hd)
      | _ => cases hbody
  | _ => trivial

theorem noted_of_makes {op : Op} (hop : op ∈ trace) (h : op.Makes c o) : Noted trace c o := by
  cases op with
  | message k env r =>
      cases r with
      | createPool id size =>
          obtain ⟨p, rfl, rfl⟩ := h
          exact ⟨id, k, env, hop⟩
      | createBuffer sender id offset width height stride format =>
          obtain ⟨b, buf, p, rfl, rfl, rfl, hdma, hshm, rfl, hp, hoffset⟩ := h
          refine ⟨fun buf' hbuf' => ?_, fun d hd => ?_⟩
          · obtain rfl := Option.some.inj (hshm.symm.trans hbuf')
            exact ⟨p, offset, .intro hp, hoffset, sender, id, format, k, env, hop⟩
          · rw [hdma] at hd
            cases hd
      | createParams id =>
          obtain ⟨p, rfl, -⟩ := h
          trivial
      | createSurface id =>
          obtain ⟨s, rfl⟩ := h
          trivial
      | _ => cases h
  | _ => cases h

/-! ### Frames -/

theorem Pictures.change (h : c.Pictures f) (hchange : Change made c c') : c'.Pictures f := by
  obtain ⟨b, hheld, hframe, haccepts⟩ := h
  obtain ⟨hwidth, hheight⟩ := Changes.size (.single hchange)
  refine ⟨b, hheld.change hchange, hframe, ?_⟩
  rw [accepts, hwidth, hheight]
  exact haccepts

theorem Pictured.mono (h : Pictured trace c) (hsub : trace ⊆ trace') : Pictured trace' c :=
  ⟨fun a o ho => (h.objects a o ho).mono hsub, h.frames⟩

theorem Pictured.change (h : Pictured trace c) (hchange : Change (Noted trace) c c') :
    Pictured trace c' := by
  have hheld (a : Addr) (p : Pool) (hp : c.Held a (.pool p)) : c'.Held a (.pool p) := hp.change hchange
  have hkept (a : Addr) (o : Obj) (ho : c.heap.objs a = some o) : Noted trace c' o :=
    (h.objects a o ho).congr rfl hheld
  have hframes (f : Frame) (hf : f ∈ c.queue) : c'.Pictures f := (h.frames f hf).change hchange
  cases hchange with
  | @write a o o' ho hbody =>
      refine ⟨fun x o₁ ho₁ => ?_, hframes⟩
      rw [write, Heap.objs_set ho] at ho₁
      split at ho₁
      · obtain rfl := Option.some.inj ho₁
        exact (h.objects a o ho).congr hbody hheld
      · exact hkept x o₁ ho₁
  | @free a o ho =>
      refine ⟨fun x o₁ ho₁ => ?_, hframes⟩
      rw [CaptureSession.free, Heap.objs_set ho] at ho₁
      split at ho₁
      · cases ho₁
      · exact hkept x o₁ ho₁
  | @alloc k o hmade =>
      refine ⟨fun x o₁ ho₁ => ?_, hframes⟩
      rw [CaptureSession.alloc, Heap.objs_alloc] at ho₁
      split at ho₁
      · obtain rfl := Option.some.inj ho₁
        exact hmade.congr rfl hheld
      · exact hkept x o₁ ho₁
  | unqueue i => exact ⟨hkept, fun f hf => hframes f (List.mem_of_mem_eraseIdx hf)⟩
  | @push a b k hb haccepts =>
      refine ⟨hkept, fun f hf => ?_⟩
      obtain hf | hf := List.mem_append.mp hf
      · exact hframes f hf
      · obtain rfl := List.mem_singleton.mp hf
        exact ⟨b, .intro hb, rfl, haccepts⟩
  | other heap freed queue =>
      refine ⟨?_, queue ▸ hframes⟩
      rw [heap]
      exact hkept

theorem Pictured.changes (h : Pictured trace c) (hchanges : Changes (Noted trace) c c') :
    Pictured trace c' :=
  kept_of_steps (Pictured trace) hchanges (fun _ _ hstep hpictured => hpictured.change hstep) h

/-- The planes of a params object do not matter. -/
theorem Pictured.writeParams (h : Pictured trace c) {p p' : Params}
    (hp : c.heap.objs a = some (.params p)) : Pictured trace (c.write a (.params p')) := by
  constructor
  · intro x o ho
    rw [write, Heap.objs_set hp] at ho
    split at ho
    · obtain rfl := Option.some.inj ho
      trivial
    · refine (h.objects x o ho).congr rfl fun _ _ hheld => hheld.writeParams hp ?_
      rintro ⟨⟩
  · intro f hf
    obtain ⟨b, hheld, hframe, haccepts⟩ := h.frames f hf
    refine ⟨b, hheld.writeParams hp ?_, hframe, haccepts⟩
    rintro ⟨⟩

/-! ### Runs -/

theorem start_pictured (width height : Nat) : Pictured trace (start width height) where
  objects _ _ ho := by cases ho
  frames _ hf := by cases hf

variable {k : Nat} {env : Env} {r : Request} {op : Op}

/-- A request about planes. -/
theorem Pictured.planes (h : Pictured trace c) (hready : c.Ready) (hr : r.OfPlanes)
    (hsome : (c.sessions k).isSome) (hconforms : c.Conforms k r) (hop : .message k env r ∈ trace)
    (hok : c.proxyMessage k env r = .ok c') : Pictured trace c' := by
  obtain ⟨s, hs⟩ := Option.isSome_iff_exists.mp hsome
  obtain ⟨-, rfl⟩ | ⟨c₁, s₁, action, hchanges, hready₁, hs₁, haccepts, -, hhandler⟩ :=
    hready.toHandler hs hconforms hok
  · exact h
  have h₁ : Pictured trace c₁ := h.changes (hchanges.mono fun _ _ => noted_of_makes hop)
  cases r with
  | paramsAdd sender plane offset stride hi lo =>
      obtain ⟨a, p, -, hp, -, rfl⟩ := paramsAdd_ok hready₁ hs₁ haccepts hhandler
      exact h₁.writeParams hp
  | createImmed sender id width height format =>
      obtain ⟨a, p, -, hp, hresult⟩ := createImmed_ok hready₁ hs₁ haccepts.1 haccepts.2 hhandler
      obtain ⟨-, rfl⟩ | ⟨-, m, b, d, -, hd, -, ⟨hshm, hwidth, hheight⟩, rfl⟩ := hresult
      · exact h₁
      · have hmade : Noted trace (c₁.write a (.params p.handOver)) (.buffer b) := by
          refine ⟨fun buf hbuf => ?_, fun d' hd' => ?_⟩
          · rw [hshm] at hbuf
            cases hbuf
          · obtain rfl := Option.some.inj (hd.symm.trans hd')
            exact ⟨hwidth, hheight⟩
        have halloc := (h₁.writeParams hp).change (.alloc k hmade)
        exact halloc.changes (.setObjData _ k m)
  | _ => exact absurd hr id

theorem Pictured.perform (h : Pictured trace c) (hready : c.Ready) (hop : c.Allowed op)
    (hok : c.perform op = .ok c') : Pictured (trace ++ [op]) c' := by
  have h' : Pictured (trace ++ [op]) c := h.mono (List.subset_append_left _ _)
  have hmem : op ∈ trace ++ [op] := List.mem_append_right _ (List.mem_singleton_self op)
  by_cases hplanes : ∃ k env r, op = .message k env r ∧ r.OfPlanes
  · obtain ⟨k, env, r, rfl, hr⟩ := hplanes
    exact h'.planes hready hr hop.1 hop.2 hmem hok
  · refine h'.changes ((perform_changes ?_ hok).mono fun _ _ => noted_of_makes hmem)
    exact fun k env r heq hr => hplanes ⟨k, env, r, heq, hr⟩

/-! ### What a queued frame points to -/

/-- The buffer is there; a shm buffer has been asked for, and its pool is still mapped. -/
structure Backed (trace : List Op) (c : CaptureSession) (f : Frame) (b : Buffer) : Prop where
  buffer : c.heap.objs f.buf = some (.buffer b)
  frame : f = frameOf b f.buf f.conn
  accepted : c.accepts b = true
  backing : b.shmBuf.isNone ≠ b.dmaBuf.isNone
  shm : ∀ buf, b.shmBuf = some buf → ∃ p offset id, c.heap.objs buf.pool = some (.pool p) ∧
    Asked trace (.createPool id p.size) ∧ buf.p = p.p + offset ∧
    AskedShm trace offset b.width b.height buf.stride
  dma : ∀ d, b.dmaBuf = some d → d.width = b.width ∧ d.height = b.height

theorem Pictured.backed (h : Pictured trace c) (hready : c.Ready) (hf : f ∈ c.queue) :
    ∃ b, Backed trace c f b := by
  obtain ⟨b₀, hheld, hframe, haccepts⟩ := h.frames f hf
  obtain ⟨b, hb⟩ := buffer_of_kind (hready.queued f hf).1
  have hbody := hheld.2 _ hb
  simp only [Obj.body, Obj.buffer.injEq, Buffer.mk.injEq] at hbody
  obtain ⟨-, hwidth, hheight, hshm, hdma, -⟩ := hbody
  have hrefs := hready.inv.refs _ _ hb
  have hnoted := h.objects _ _ hb
  refine ⟨b, hb, ?_, ?_, hrefs.2, fun buf hbuf => ?_, hnoted.2⟩
  · rw [frameOf, hwidth, hshm, hdma]
    exact hframe
  · rw [accepts, hwidth, hheight]
    exact haccepts
  · obtain ⟨p₀, offset, hpool, hp, hasked⟩ := hnoted.1 buf hbuf
    obtain ⟨p, hp'⟩ := pool_of_kind (hrefs.1 buf hbuf)
    obtain ⟨id, hsize⟩ := h.objects _ _ hp'
    have hbody := hpool.2 _ hp'
    simp only [Obj.body, Obj.pool.injEq, Pool.mk.injEq] at hbody
    obtain ⟨-, hsame, -⟩ := hbody
    exact ⟨p, offset, id, hp', hsize, hsame ▸ hp, hasked⟩

end CaptureSession

end Stratus.Capture
