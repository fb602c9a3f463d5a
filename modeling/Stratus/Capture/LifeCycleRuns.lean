import Stratus.Capture.LifeCycleHandlers

/-! Whole runs of the Capture module: what is true of its objects in every state that
clients, the encode queue and the teardown of sessions can bring about. -/
namespace Stratus.Capture

open Stratus.Lib Proxy

namespace CaptureSession

variable {c : CaptureSession} {k id : Nat} {s s' : Session Addr} {env : Env} {r : Request}

/-! ### Messages -/

/-- `Conforms` after the proxy has entered the new object. -/
def Accepts (c : CaptureSession) (k : Nat) (s : Session Addr) : Request → Prop
  | .createPool id _ => Reserved s id .wlShmPool
  | .poolDestroy sender => c.Live k sender .wlShmPool
  | .createBuffer sender id _ _ _ _ _ => c.Live k sender .wlShmPool ∧ Reserved s id .wlBuffer
  | .createParams id => Reserved s id .zwpLinuxBufferParamsV1
  | .paramsAdd sender _ _ _ _ _ => c.Live k sender .zwpLinuxBufferParamsV1
  | .createImmed sender id _ _ _ =>
      c.Live k sender .zwpLinuxBufferParamsV1 ∧ Reserved s id .wlBuffer
  | .paramsDestroy sender => c.Live k sender .zwpLinuxBufferParamsV1
  | .bufferRelease _ => True
  | .bufferDestroy sender => c.objType k sender = some .wlBuffer
  | .createSurface id => Reserved s id .wlSurface
  | .surfaceAttach sender buf _ _ => c.Live k sender .wlSurface ∧
      (buf = 0 ∨ c.objType k buf = some .wlBuffer)
  | .surfaceCommit sender => c.Live k sender .wlSurface
  | .surfaceDestroy sender => c.Live k sender .wlSurface
  | .other _ => True

theorem handler_fine (h : c.Ready) (hs : c.sessions k = some s) (hr : c.Accepts k s r) :
    Fine (c.handler k env r) := by
  cases r with
  | createPool id size => exact wlShmCreatePool_fine h hs hr size
  | poolDestroy sender =>
      obtain ⟨a, p, ha, hp, hid, hne, -⟩ := live_pool h hs hr
      exact (wlShmPoolDestroy_destroys h hs ha hp hid hne).fine
  | createBuffer sender id offset width height stride format =>
      exact wlShmPoolCreateBuffer_fine h hs hr.1 hr.2 offset width height stride format
  | createParams id => exact zwpLinuxDmabufCreateParams_fine h hs hr
  | paramsAdd sender plane offset stride modifierHi modifierLo =>
      exact zwpLinuxBufferParamsAdd_fine h hs hr plane offset stride modifierHi modifierLo
  | createImmed sender id width height format =>
      exact zwpLinuxBufferParamsCreateImmed_fine h hs hr.1 hr.2 width height format
  | paramsDestroy sender =>
      obtain ⟨a, p, ha, hp, hid, -⟩ := live_params h hs hr
      exact (zwpLinuxBufferParamsDestroy_destroys h hs ha hp hid).fine
  | bufferRelease sender =>
      change Fine (.ok (c.wlBufferReleaseEvent k sender))
      unfold wlBufferReleaseEvent
      split
      · exact h.fine .drop
      · exact h.fine .forward
  | bufferDestroy sender =>
      cases ha : s.objData.lookup sender with
      | none =>
          -- a buffer of another kind than the module keeps
          refine .inr ⟨c, .forward, ?_, h⟩
          simp only [handler, wlBufferDestroy, objData_eq hs, ha, pure, Except.pure]
      | some a =>
          have hlive : c.Live k sender .wlBuffer := ⟨hr, by rw [objData_eq hs, ha]; rfl⟩
          obtain ⟨a, b, ha, hb, hid, hne, -⟩ := live_buffer h hs hlive
          exact (wlBufferDestroy_destroys h hs ha hb hid hne).fine
  | createSurface id => exact wlCompositorCreateSurface_fine h hs hr
  | surfaceAttach sender buf x y => exact wlSurfaceAttach_fine h hs hr.1 hr.2 x y
  | surfaceCommit sender => exact wlSurfaceCommit_fine h hs hr
  | surfaceDestroy sender =>
      obtain ⟨a, x, ha, hx, hid, hne, -⟩ := live_surface h hs hr
      exact (wlSurfaceDestroy_destroys h hs ha hx hid hne).fine
  | other created => exact h.fine .forward

theorem Accepts.congr {c' : CaptureSession} (hsessions : c'.sessions = c.sessions)
    (h : c.Accepts k s r) : c'.Accepts k s r := by
  cases r <;> simp only [Accepts, Live, objType, objData, hsessions] at h ⊢ <;> exact h

theorem handleMessage_fine (h : c.Ready) (hs : c.sessions k = some s) (hr : c.Accepts k s r) :
    Fine (c.handleMessage k env r) := by
  obtain ⟨c₁, hc₁, hready, hkeep⟩ := h.freeFrames env.expired
  have hfine : Fine (c₁.handler k env r) :=
    handler_fine hready (by rw [hkeep.sessions, hs]) (hr.congr hkeep.sessions)
  unfold handleMessage
  rw [hc₁]
  exact hfine

/-- A message that creates nothing. -/
theorem Conforms.accepts (h : c.Conforms k r) (hnone : r.created = none) : c.Accepts k s r := by
  cases r with
  | poolDestroy => exact h
  | paramsAdd => exact h
  | paramsDestroy => exact h
  | bufferRelease => trivial
  | bufferDestroy => exact h
  | surfaceAttach => exact h
  | surfaceCommit => exact h
  | surfaceDestroy => exact h
  | other => trivial
  | _ => cases hnone

section Creation

variable {i : Interface} (hcreate : proxyCreateObject s id (some i) = .ok s')
include hcreate

/-- What `proxy_create_object` does to the two maps. -/
theorem proxyCreateObject_maps : s.objTypes.insertAt id (some i) = some s'.objTypes ∧
    s.objData.insertAt id none = some s'.objData := by
  unfold proxyCreateObject at hcreate
  split at hcreate
  · cases hcreate
  · next types htypes =>
    split at hcreate
    · cases hcreate
    · next data hdata =>
      cases hcreate
      exact ⟨htypes, hdata⟩

theorem Unused.reserved (h : c.Unused k id) : Reserved s' id i := by
  obtain ⟨htypes, hdata⟩ := proxyCreateObject_maps hcreate
  refine ⟨h.pos, h.range, ?_, ?_, fun data => WlMap.insertAt_again hdata data⟩
  · rw [WlMap.lookup_insertAt hdata, if_pos rfl]
  · rw [WlMap.lookup_insertAt htypes, if_pos rfl]

/-- The other objects are as live as before. -/
theorem Live.created {sender : Nat} {j : Interface} (hs : c.sessions k = some s)
    (hlive : c.Live k sender j) (hfree : (c.objData k).lookup id = none) :
    (c.setSession k (some s')).Live k sender j := by
  obtain ⟨htypes, hdata⟩ := proxyCreateObject_maps hcreate
  obtain ⟨htype, hsome⟩ := hlive
  rw [objData_eq hs] at hsome hfree
  have hne : sender ≠ id := by
    rintro rfl
    rw [hfree] at hsome
    cases hsome
  have hs' : (c.setSession k (some s')).sessions k = some s' := if_pos rfl
  rw [objType, hs, Option.bind_some] at htype
  refine ⟨?_, ?_⟩
  · rw [objType, hs', Option.bind_some, WlMap.lookup_insertAt htypes, if_neg hne, htype]
  · rw [objData_eq hs', WlMap.lookup_insertAt hdata, if_neg hne]
    exact hsome

theorem Ready.created (h : c.Ready) (hs : c.sessions k = some s)
    (hfree : s.objData.lookup id = none) : (c.setSession k (some s')).Ready := by
  obtain ⟨htypes, hdata⟩ := proxyCreateObject_maps hcreate
  refine ⟨h.inv.resession hs ?_ ?_ ?_, h.queued⟩
  · intro j
    rw [WlMap.lookup_insertAt hdata]
    split
    · next hj => rw [hj, hfree]
    · rfl
  · intro j a hj
    rw [WlMap.lookup_insertAt htypes, if_neg]
    rintro rfl
    rw [hfree] at hj
    cases hj
  · exact WlMap.insertAt_client_le hdata (h.inv.sized k s hs)

end Creation

/-- A message that creates an object. -/
theorem Conforms.created {i : Interface} (hs : c.sessions k = some s) (h : c.Conforms k r)
    (hr : r.created = some (id, i)) (hcreate : proxyCreateObject s id (some i) = .ok s') :
    (c.setSession k (some s')).Accepts k s' r ∧ s.objData.lookup id = none := by
  have hfree (hunused : c.Unused k id) : s.objData.lookup id = none := by
    rw [← objData_eq hs]
    exact hunused.free
  cases r with
  | createPool | createParams | createSurface =>
      cases hr
      exact ⟨Unused.reserved hcreate h, hfree h⟩
  | createBuffer | createImmed =>
      cases hr
      exact ⟨⟨Live.created hcreate hs h.1 h.2.free, Unused.reserved hcreate h.2⟩, hfree h.2⟩
  | other created =>
      refine ⟨trivial, ?_⟩
      rw [← objData_eq hs]
      exact h (id, i) hr
  | _ => cases hr

/-- An operation ends well, or with an assertion that is not about the life cycle. -/
def Steps (result : Except Fault CaptureSession) : Prop :=
  result = .error .unsupported ∨ ∃ c', result = .ok c' ∧ c'.Ready

theorem Fine.steps {result : Except Fault (CaptureSession × Action)} (h : Fine result) :
    Steps (Prod.fst <$> result) := by
  rcases h with rfl | ⟨c', action, rfl, hready⟩
  · exact .inl rfl
  · exact .inr ⟨c', rfl, hready⟩

theorem proxyMessage_steps (h : c.Ready) (hsome : (c.sessions k).isSome) (hr : c.Conforms k r) :
    Steps (c.proxyMessage k env r) := by
  obtain ⟨s, hs⟩ := Option.isSome_iff_exists.mp hsome
  unfold proxyMessage
  simp only [hs]
  split
  · next hnone => exact (handleMessage_fine h hs (hr.accepts hnone)).steps
  · next id i hcreated =>
    split
    · exact .inr ⟨c, rfl, h⟩
    · next s' hs' =>
      obtain ⟨haccepts, hfree⟩ := Conforms.created hs hr hcreated hs'
      exact (handleMessage_fine (Ready.created hs' h hs hfree) (if_pos rfl) haccepts).steps

/-! ### Teardown -/

/-- The handlers that the teardown looks up are those of the objects' interfaces. -/
theorem destroyHandler_destroys (h : c.Ready) (hs : c.sessions k = some s) {a : Addr} {o : Obj}
    (ha : s.objData.lookup id = some a) (ho : c.heap.objs a = some o) (hid : o.id = id)
    (hne : id ≠ 0) : c.Destroys k id (c.destroyHandler k id o.interface) := by
  cases o with
  | surface x => exact wlSurfaceDestroy_destroys h hs ha ho hid hne
  | buffer b => exact wlBufferDestroy_destroys h hs ha ho hid hne
  | pool p => exact wlShmPoolDestroy_destroys h hs ha ho hid hne
  | params p => exact zwpLinuxBufferParamsDestroy_destroys h hs ha ho hid

theorem interface_destroy (o : Obj) :
    (o.interface.methods.any fun method => method.name = "destroy") = true := by
  cases o <;> rfl

theorem destroyObject_ok (h : c.Ready) (hs : c.sessions k = some s) {a : Addr}
    (ha : s.objData.lookup id = some a) (expired : List Nat) :
    ∃ c', c.destroyObject k expired id = .ok c' ∧ c'.Ready ∧
      c'.sessions k = some { s with objData := s.objData.remove id } := by
  obtain ⟨c₁, hc₁, hready₁, hkeep⟩ := h.freeFrames expired
  have hs₁ : c₁.sessions k = some s := by rw [hkeep.sessions, hs]
  obtain ⟨o, ho, hid, hne, hlt, -, htype⟩ := hready₁.inv.entry hs₁ ha
  have htype' : c.objType k id = some o.interface := by
    rw [objType, hs, Option.bind_some, htype]
  obtain ⟨c₂, hc₂, hready₂, hsessions⟩ := destroyHandler_destroys hready₁ hs₁ ha ho hid hne
  have hs₂ : c₂.sessions k = some { s with objData := s.objData.remove id } := by
    rw [hsessions, objData_eq hs₁, sessions_setObjData hs₁, if_pos rfl]
  have hgone : (c₂.objData k).lookup id = none := by
    rw [objData_eq hs₂, WlMap.lookup_remove hlt, if_pos rfl]
  refine ⟨c₂, ?_, hready₂, hs₂⟩
  unfold destroyObject
  simp only [htype', interface_destroy, if_true, hc₁, hc₂, hgone, bind, Except.bind]
  rfl

/-- The client's part of the map is emptied, entry by entry. -/
theorem destroyEntries_client (expired : Nat → List Nat) (ids : List Nat) (h : c.Ready)
    (hs : c.sessions k = some s) (hids : ∀ i ∈ ids, i < serverIdStart) :
    ∃ c' s', destroyEntries WlMap.client k expired ids c = .ok c' ∧ c'.Ready ∧
      c'.sessions k = some s' ∧ s'.objData.client.length = s.objData.client.length ∧
      ∀ i, s'.objData.lookup i = if i ∈ ids then none else s.objData.lookup i := by
  induction ids generalizing c s with
  | nil => exact ⟨c, s, rfl, h, hs, rfl, fun i => rfl⟩
  | cons idx rest ih =>
      have hlt : idx < serverIdStart := hids idx List.mem_cons_self
      have hrest : ∀ i ∈ rest, i < serverIdStart := fun i hi => hids i (List.mem_cons_of_mem _ hi)
      have hentry : s.objData.client[idx]?.join = s.objData.lookup idx := (if_pos hlt).symm
      unfold destroyEntries
      rw [objData_eq hs, hentry]
      cases ha : s.objData.lookup idx with
      | none =>
          obtain ⟨c', s', hc', hready, hs', hlen, hlookup⟩ := ih h hs hrest
          refine ⟨c', s', hc', hready, hs', hlen, fun i => ?_⟩
          rw [hlookup]
          by_cases hi : i = idx
          · simp [hi, ha]
          · simp [hi]
      | some a =>
          obtain ⟨c₁, hc₁, hready₁, hs₁⟩ := destroyObject_ok h hs ha (expired idx)
          obtain ⟨c', s', hc', hready, hs', hlen, hlookup⟩ := ih hready₁ hs₁ hrest
          refine ⟨c', s', ?_, hready, hs', ?_, fun i => ?_⟩
          · simp only [hc₁, bind, Except.bind]
            exact hc'
          · exact hlen.trans (WlMap.client_remove_length _ _)
          · rw [hlookup, WlMap.lookup_remove hlt]
            by_cases hi : i = idx
            · simp [hi]
            · simp [hi]

/-- There is nothing to destroy on the server's side. -/
theorem destroyEntries_server (expired : Nat → List Nat) (ids : List Nat)
    (hs : c.sessions k = some s) (hnone : ∀ i, s.objData.lookup i = none) :
    destroyEntries WlMap.server k expired ids c = .ok c := by
  induction ids with
  | nil => rfl
  | cons idx rest ih =>
      unfold destroyEntries
      rw [objData_eq hs, WlMap.server_eq_none hnone idx]
      exact ih

/-- The places of the client's array are ids of the client. -/
theorem Ready.client_range (h : c.Ready) (hs : c.sessions k = some s) :
    ∀ i ∈ List.range s.objData.client.length, i < serverIdStart := by
  intro i hi
  have hlt := List.mem_range.mp hi
  have hsize := h.inv.sized k s hs
  unfold maxObjects at hsize
  unfold serverIdStart
  omega

/-- Nothing is left in the map of a client after its part has been emptied. -/
theorem destroyClient_ok (h : c.Ready) (hs : c.sessions k = some s) (expired : Nat → List Nat) :
    ∃ c' s', destroyEntries WlMap.client k expired (List.range s.objData.client.length) c = .ok c' ∧
      c'.Ready ∧ c'.sessions k = some s' ∧ ∀ i, s'.objData.lookup i = none := by
  obtain ⟨c₁, s₁, hc₁, hready₁, hs₁, -, hlookup⟩ := destroyEntries_client expired
    (List.range s.objData.client.length) h hs (h.client_range hs)
  refine ⟨c₁, s₁, hc₁, hready₁, hs₁, fun i => ?_⟩
  rw [hlookup]
  split
  · rfl
  · next hi =>
    cases ha : s.objData.lookup i with
    | none => rfl
    | some a =>
        -- an entry of the client lies within its array
        obtain ⟨-, -, -, -, hlt, -⟩ := h.inv.entry hs ha
        rw [WlMap.lookup, if_pos hlt, List.getElem?_eq_none] at ha
        · cases ha
        · simpa using hi

theorem sessionDestroy_ok (h : c.Ready) (hsome : (c.sessions k).isSome) (expired : Nat → List Nat) :
    ∃ c', c.sessionDestroy k expired = .ok c' ∧ c'.Ready := by
  obtain ⟨s, hs⟩ := Option.isSome_iff_exists.mp hsome
  obtain ⟨c₁, s₁, hc₁, hready₁, hs₁, hnone⟩ := destroyClient_ok h hs expired
  refine ⟨c₁.setSession k none, ?_, hready₁.inv.disconnect hs₁ hnone, hready₁.queued⟩
  unfold sessionDestroy
  simp only [objData_eq hs, hc₁, destroyEntries_server expired _ hs₁ hnone, bind, Except.bind]
  rfl

/-! ### Every run -/

theorem start_ready (width height : Nat) : (start width height).Ready := by
  refine ⟨?_, fun f hf => by cases hf⟩
  constructor
  · rintro a o ⟨⟩
  · rintro a o ⟨⟩
  · rintro a ⟨⟩
  · rintro a o ⟨⟩
  · rintro x ⟨⟩
  · exact List.nodup_nil
  · rintro x ⟨⟩
  · intro a ha
    cases ha
  · rintro k s id a ⟨⟩
  · rintro a id i ⟨⟩
  · rintro k s ⟨⟩

theorem perform_steps (h : c.Ready) {op : Op} (hop : c.Allowed op) : Steps (c.perform op) := by
  cases op with
  | connect k =>
      refine .inr ⟨_, rfl, h.inv.connect hop ?_ ?_, h.queued⟩
      · intro id
        unfold WlMap.lookup
        split
        · rcases id with _ | _ | id <;> rfl
        · rfl
      · decide
  | message k env r => exact proxyMessage_steps h hop.1 hop.2
  | disconnect k expired => exact .inr (sessionDestroy_ok h hop expired)
  | freeQueued frames =>
      obtain ⟨c', hc', hready, -⟩ := h.freeFrames frames
      exact .inr ⟨c', hc', hready⟩

theorem reachable_ready {width height : Nat} (hc : (system width height).Reachable c) : c.Ready := by
  refine System.Reachable.invariant Ready ?_ ?_ hc
  · rintro _ rfl
    exact start_ready width height
  · rintro c c' h ⟨op, hop, hc'⟩
    rcases perform_steps h hop with herror | ⟨c₁, hc₁, hready⟩
    · rw [herror] at hc'
      cases hc'
    · rw [hc₁] at hc'
      cases hc'
      exact hready

/-! ### The life cycle -/

/-- A surface with this buffer attached. -/
def attached (a : Addr) : Obj → Bool
  | .surface s => s.buf == some a
  | _ => false

/-- A shm buffer of this pool. -/
def usesPool (a : Addr) : Obj → Bool
  | .buffer b => b.shmBuf.map ShmBuffer.pool == some a
  | _ => false

/-- How many unfreed objects have a property. -/
def unfreed (c : CaptureSession) (p : Obj → Bool) : Nat :=
  (List.range c.heap.next).countP fun a => (c.heap.objs a).any p

/-- How many queued frames reference a buffer. -/
def frames (c : CaptureSession) (a : Addr) : Nat := c.queue.countP fun f => f.buf == a

/-- What holds of the objects between two operations. -/
structure LifeCycle (c : CaptureSession) : Prop where
  buffer_dependents : ∀ a b, c.heap.objs a = some (.buffer b) →
    b.dependents = c.unfreed (attached a) + c.frames a
  pool_dependents : ∀ a p, c.heap.objs a = some (.pool p) → p.dependents = c.unfreed (usesPool a)
  /-- An object is not left over once it can be freed, and is not freed before. -/
  unfreed_needed : ∀ a o, c.heap.objs a = some o → ¬ o.Expired
  freed_ready : ∀ x ∈ c.freed, x.2.Freeable
  freed_iff : ∀ a, a ∈ c.freed.map Prod.fst ↔ a < c.heap.next ∧ c.heap.objs a = none
  freed_once : (c.freed.map Prod.fst).Nodup
  /-- Nothing that is freed is referenced. -/
  objData_live : ∀ k s id a, c.sessions k = some s → s.objData.lookup id = some a →
    ∃ o, c.heap.objs a = some o ∧ o.id = id ∧ s.objTypes.lookup id = some o.interface
  surface_live : ∀ x s a, c.heap.objs x = some (.surface s) → s.buf = some a →
    ∃ b, c.heap.objs a = some (.buffer b)
  frame_live : ∀ f ∈ c.queue, ∃ b, c.heap.objs f.buf = some (.buffer b)
  pool_live : ∀ x b buf, c.heap.objs x = some (.buffer b) → b.shmBuf = some buf →
    ∃ p, c.heap.objs buf.pool = some (.pool p)
  /-- An object that was not destroyed can be found by its session. -/
  named_stored : ∀ a o, c.heap.objs a = some o → o.id ≠ 0 →
    ∃ s, c.sessions (c.owner a) = some s ∧ s.objData.lookup o.id = some a

/-- A buffer is only referred to by surfaces. -/
theorem Inv.count_attached {dead roots : List Addr} (h : Inv dead roots c) {a x : Addr} {b : Buffer}
    {o : Obj} (hb : c.heap.objs a = some (.buffer b)) (hx : c.heap.objs x = some o) :
    o.refs.count a = if attached a o then 1 else 0 := by
  cases o with
  | surface s => cases hbuf : s.buf <;> simp [Obj.refs, attached, hbuf, List.count_singleton]
  | buffer b' =>
      refine List.count_eq_zero_of_not_mem fun hmem => ?_
      obtain ⟨buf, hbuf, rfl⟩ : ∃ buf, b'.shmBuf = some buf ∧ buf.pool = a := by
        simpa [Obj.refs] using hmem
      obtain ⟨p, hp⟩ := pool_of_kind ((h.refs x _ hx).1 buf hbuf)
      rw [hb] at hp
      cases hp
  | pool p => rfl
  | params p => rfl

/-- A pool is only referred to by shm buffers. -/
theorem Inv.count_usesPool {dead roots : List Addr} (h : Inv dead roots c) {a x : Addr} {p : Pool}
    {o : Obj} (hp : c.heap.objs a = some (.pool p)) (hx : c.heap.objs x = some o) :
    o.refs.count a = if usesPool a o then 1 else 0 := by
  cases o with
  | surface s =>
      refine List.count_eq_zero_of_not_mem fun hmem => ?_
      have hbuf : s.buf = some a := by simpa [Obj.refs] using hmem
      obtain ⟨b, hb⟩ := buffer_of_kind (h.refs x _ hx a hbuf).1
      rw [hp] at hb
      cases hb
  | buffer b => cases hbuf : b.shmBuf <;> simp [Obj.refs, usesPool, hbuf, List.count_singleton]
  | pool p => rfl
  | params p => rfl

theorem Ready.lifeCycle (h : c.Ready) : c.LifeCycle where
  buffer_dependents a b hb := by
    have hcounted : b.dependents = c.holds (c.queue.map Frame.buf) a := h.inv.counted a _ hb
    rw [hcounted, holds, Heap.holds_eq_countP (attached a) (fun x o hx => h.inv.count_attached hb hx),
      List.count_eq_countP, List.countP_map]
    rfl
  pool_dependents a p hp := by
    have hcounted : p.dependents = c.holds (c.queue.map Frame.buf) a := h.inv.counted a _ hp
    have hqueue : (c.queue.map Frame.buf).count a = 0 := by
      refine List.count_eq_zero_of_not_mem fun hmem => ?_
      obtain ⟨f, hf, rfl⟩ := List.mem_map.mp hmem
      obtain ⟨b, hb⟩ := buffer_of_kind (h.queued f hf).1
      rw [hp] at hb
      cases hb
    rw [hcounted, holds, hqueue,
      Heap.holds_eq_countP (usesPool a) (fun x o hx => h.inv.count_usesPool hp hx)]
    rfl
  unfreed_needed a o ho := h.inv.alive a o ho (List.not_mem_nil)
  freed_ready := h.inv.freed_ready
  freed_iff a := by
    constructor
    · intro ha
      obtain ⟨x, hx, rfl⟩ := List.mem_map.mp ha
      exact h.inv.freed_gone x hx
    · rintro ⟨hlt, hnone⟩
      exact h.inv.accounted a hlt hnone
  freed_once := h.inv.freed_once
  objData_live k s id a hs ha := by
    obtain ⟨o, ho, hid, -, -, -, htype⟩ := h.inv.entry hs ha
    exact ⟨o, ho, hid, htype⟩
  surface_live x s a hx ha := buffer_of_kind (h.inv.refs x _ hx a ha).1
  frame_live f hf := buffer_of_kind (h.queued f hf).1
  pool_live x b buf hx hbuf := pool_of_kind ((h.inv.refs x _ hx).1 buf hbuf)
  named_stored a o ho hid := h.inv.owned a o.id o.interface (named_eq ho hid)

theorem life_cycle_of_reachable {width height : Nat} (hc : (system width height).Reachable c) :
    c.LifeCycle ∧ ∀ op fault, c.Allowed op → c.perform op = .error fault → fault = .unsupported := by
  have hready := reachable_ready hc
  refine ⟨hready.lifeCycle, fun op fault hop hfault => ?_⟩
  rcases perform_steps hready hop with herror | ⟨c', hc', -⟩
  · rw [hfault] at herror
    exact Except.error.inj herror
  · rw [hfault] at hc'
    cases hc'

/-- Nothing fails and no frame is freed. -/
def quiet : Env where
  expired := []
  malloc := true
  mmap := some 4096
  dup := some 5
  full := false
  pushExpired := []
  sent := true

/-- A buffer is destroyed while the frame that was committed with it is queued. -/
theorem life_cycle_of_queued_frame : ∃ c, (system 8 8).Reachable c ∧ c.LifeCycle ∧ c.frames 1 = 1 ∧
    c.freed = [] ∧ (c.objData 0).lookup 3 = none := by
  have h₀ : (system 8 8).Reachable (start 8 8) := .start rfl
  have h₁ := h₀.next ⟨.connect 0, rfl, rfl⟩
  have h₂ := h₁.next ⟨.message 0 quiet (.createPool 2 4096), ⟨rfl, by decide, by decide, rfl⟩, rfl⟩
  have h₃ := h₂.next ⟨.message 0 quiet (.createBuffer 2 3 0 8 8 32 0),
    ⟨rfl, ⟨rfl, rfl⟩, by decide, by decide, rfl⟩, rfl⟩
  have h₄ := h₃.next ⟨.message 0 quiet (.createSurface 4), ⟨rfl, by decide, by decide, rfl⟩, rfl⟩
  have h₅ := h₄.next ⟨.message 0 quiet (.surfaceAttach 4 3 0 0), ⟨rfl, ⟨rfl, rfl⟩, .inr rfl⟩, rfl⟩
  have h₆ := h₅.next ⟨.message 0 quiet (.surfaceCommit 4), ⟨rfl, rfl, rfl⟩, rfl⟩
  have h₇ := h₆.next ⟨.message 0 quiet (.bufferDestroy 3), ⟨rfl, rfl⟩, rfl⟩
  exact ⟨_, h₇, (life_cycle_of_reachable h₇).1, rfl, rfl, rfl⟩
end CaptureSession

end Stratus.Capture
