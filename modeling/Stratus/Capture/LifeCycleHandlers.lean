import Stratus.Capture.LifeCycleSteps

/-! Every handler and the teardown of a session keep the invariant, for clients that
follow the Wayland protocol. -/
namespace Stratus.Capture

open Stratus.Lib Proxy

namespace CaptureSession

variable {c : CaptureSession} {k id sender : Nat} {s : Session Addr} {env : Env} {o o' : Obj}
  {a : Addr}

/-- A handler ends well, or with an assertion that is not about the life cycle. -/
def Fine (r : Except Fault (CaptureSession × Action)) : Prop :=
  r = .error .unsupported ∨ ∃ c' action, r = .ok (c', action) ∧ c'.Ready

theorem Ready.fine (h : c.Ready) (action : Action) : Fine (.ok (c, action)) :=
  .inr ⟨c, action, rfl, h⟩

theorem Fine.of_forward {r : Except Fault (CaptureSession × Action)}
    (h : ∃ c', r = .ok (c', .forward) ∧ c'.Ready) : Fine r := by
  obtain ⟨c', hc', hready⟩ := h
  exact .inr ⟨c', .forward, hc', hready⟩

/-- The object that a live id stands for. -/
theorem Ready.live (h : c.Ready) (hs : c.sessions k = some s) {i : Interface}
    (hlive : c.Live k id i) :
    ∃ a o, s.objData.lookup id = some a ∧ c.heap.objs a = some o ∧ o.interface = i ∧ o.id = id ∧
      id ≠ 0 ∧ c.owner a = k := by
  obtain ⟨htype, hsome⟩ := hlive
  rw [objData_eq hs] at hsome
  obtain ⟨a, ha⟩ := Option.isSome_iff_exists.mp hsome
  obtain ⟨o, ho, hid, hne, -, howner, hinterface⟩ := h.inv.entry hs ha
  rw [objType, hs, Option.bind_some, hinterface] at htype
  cases htype
  exact ⟨a, o, ha, ho, rfl, hid, hne, howner⟩

theorem live_surface (h : c.Ready) (hs : c.sessions k = some s) (hlive : c.Live k id .wlSurface) :
    ∃ a x, s.objData.lookup id = some a ∧ c.heap.objs a = some (.surface x) ∧ x.id = id ∧ id ≠ 0 ∧
      c.owner a = k := by
  obtain ⟨a, o, ha, ho, hi, hid, hne, howner⟩ := h.live hs hlive
  cases o with
  | surface x => exact ⟨a, x, ha, ho, hid, hne, howner⟩
  | _ => cases hi

theorem live_buffer (h : c.Ready) (hs : c.sessions k = some s) (hlive : c.Live k id .wlBuffer) :
    ∃ a x, s.objData.lookup id = some a ∧ c.heap.objs a = some (.buffer x) ∧ x.id = id ∧ id ≠ 0 ∧
      c.owner a = k := by
  obtain ⟨a, o, ha, ho, hi, hid, hne, howner⟩ := h.live hs hlive
  cases o with
  | buffer x => exact ⟨a, x, ha, ho, hid, hne, howner⟩
  | _ => cases hi

theorem live_pool (h : c.Ready) (hs : c.sessions k = some s) (hlive : c.Live k id .wlShmPool) :
    ∃ a x, s.objData.lookup id = some a ∧ c.heap.objs a = some (.pool x) ∧ x.id = id ∧ id ≠ 0 ∧
      c.owner a = k := by
  obtain ⟨a, o, ha, ho, hi, hid, hne, howner⟩ := h.live hs hlive
  cases o with
  | pool x => exact ⟨a, x, ha, ho, hid, hne, howner⟩
  | _ => cases hi

theorem live_params (h : c.Ready) (hs : c.sessions k = some s)
    (hlive : c.Live k id .zwpLinuxBufferParamsV1) :
    ∃ a x, s.objData.lookup id = some a ∧ c.heap.objs a = some (.params x) ∧ x.id = id ∧ id ≠ 0 ∧
      c.owner a = k := by
  obtain ⟨a, o, ha, ho, hi, hid, hne, howner⟩ := h.live hs hlive
  cases o with
  | params x => exact ⟨a, x, ha, ho, hid, hne, howner⟩
  | _ => cases hi

theorem Queued.write (h : c.Queued) (ho : c.heap.objs a = some o)
    (hinterface : o'.interface = o.interface) : (c.write a o').Queued := by
  intro f hf
  rw [kind_write ho hinterface]
  exact h f hf

/-! ### Creating objects -/

/-- The proxy has entered a new object of this interface, still without data. -/
structure Reserved (s : Session Addr) (id : Nat) (i : Interface) : Prop where
  pos : id ≠ 0
  range : id < serverIdStart
  free : s.objData.lookup id = none
  type : s.objTypes.lookup id = some i
  room : ∀ data, ∃ m, s.objData.insertAt id data = some m

theorem register_ready (h : Inv [] (o.refs ++ c.queue.map Frame.buf) c) (hq : c.Queued)
    (hs : c.sessions k = some s) (hid : Reserved s id o.interface) (hoid : o.id = id)
    (hdependents : o.dependents = 0) (hrefs : (c.alloc k o).RefsOk c.heap.next o) :
    ∃ c', c.register k id o = .ok (c', .forward) ∧ c'.Ready := by
  obtain ⟨m, hm⟩ := hid.room (some c.heap.next)
  have hinv : Inv [] (c.queue.map Frame.buf) ((c.alloc k o).setObjData k m) :=
    h.register hs hid.pos hid.range hid.free hid.type hm hoid hdependents hrefs
  refine ⟨(c.alloc k o).setObjData k m, ?_, hinv, ?_⟩
  · unfold register
    simp only [objData_eq hs, hid.free, hm]
  · intro f hf
    obtain ⟨hkind, hconn⟩ := hq f hf
    have hne : f.buf ≠ c.heap.next := Nat.ne_of_lt (kind_isSome_lt (by rw [hkind]; rfl))
    have hkind' : ((c.alloc k o).setObjData k m).kind f.buf = c.kind f.buf :=
      kind_alloc (k := k) hne
    have howner : ((c.alloc k o).setObjData k m).owner f.buf = c.owner f.buf := if_neg hne
    rw [hkind', howner]
    exact ⟨hkind, hconn⟩

/-- An object without references is entered. -/
theorem Ready.register (h : c.Ready) (hs : c.sessions k = some s)
    (hid : Reserved s id o.interface) (hoid : o.id = id) (hdependents : o.dependents = 0)
    (hnone : o.refs = []) (hrefs : (c.alloc k o).RefsOk c.heap.next o) :
    Fine (c.register k id o) := by
  have hinv : Inv [] (o.refs ++ c.queue.map Frame.buf) c := by
    rw [hnone]
    exact h.inv
  exact Fine.of_forward (register_ready hinv h.queued hs hid hoid hdependents hrefs)

theorem wlCompositorCreateSurface_fine (h : c.Ready) (hs : c.sessions k = some s)
    (hid : Reserved s id .wlSurface) : Fine (c.wlCompositorCreateSurface k env id) := by
  unfold wlCompositorCreateSurface
  split
  · exact h.register hs hid rfl rfl rfl (by rintro t ⟨⟩)
  · exact h.fine .err

theorem wlShmCreatePool_fine (h : c.Ready) (hs : c.sessions k = some s)
    (hid : Reserved s id .wlShmPool) (size : Int) : Fine (c.wlShmCreatePool k env id size) := by
  unfold wlShmCreatePool
  split
  · exact h.register hs hid rfl rfl rfl trivial
  · exact h.fine .err

theorem zwpLinuxDmabufCreateParams_fine (h : c.Ready) (hs : c.sessions k = some s)
    (hid : Reserved s id .zwpLinuxBufferParamsV1) :
    Fine (c.zwpLinuxDmabufCreateParams k env id) := by
  unfold zwpLinuxDmabufCreateParams
  split
  · exact h.register hs hid rfl rfl rfl trivial
  · exact h.fine .err

theorem wlShmPoolCreateBuffer_fine (h : c.Ready) (hs : c.sessions k = some s)
    (hlive : c.Live k sender .wlShmPool) (hid : Reserved s id .wlBuffer)
    (offset width height stride : Int) (format : Nat) :
    Fine (c.wlShmPoolCreateBuffer k env sender id offset width height stride format) := by
  obtain ⟨a, p, ha, hp, -⟩ := live_pool h hs hlive
  unfold wlShmPoolCreateBuffer
  split
  · simp only [objData_eq hs, ha, readPool_eq hp, bind, Except.bind]
    split
    · -- the pool counts the buffer before the buffer is there
      have hinv := h.inv.inc hp (.pool p (p.dependents + 1)) rfl
      have hkind : (c.write a (.pool { p with dependents := p.dependents + 1 })).kind a =
          some .wlShmPool := kind_eq ((objs_write hp a).trans (if_pos rfl))
      have hqueued : (c.write a (.pool { p with dependents := p.dependents + 1 })).Queued :=
        h.queued.write hp rfl
      have hne : a ≠ c.heap.next := Nat.ne_of_lt (Heap.lt_next hp)
      refine Fine.of_forward (register_ready (s := s) hinv hqueued hs hid rfl rfl ⟨?_, by simp⟩)
      rintro buf ⟨⟩
      refine Eq.trans (kind_alloc ?_) hkind
      exact hne
    · exact .inl rfl
  · exact h.fine .err

/-- A params object is overwritten by one with the same id. -/
theorem Ready.writeParams (h : c.Ready) {p p' : Params} (hp : c.heap.objs a = some (.params p))
    (hid : p'.id = p.id) : (c.write a (.params p')).Ready := by
  refine ⟨?_, h.queued.write hp rfl⟩
  refine h.inv.write hp hid rfl trivial (fun t => rfl) h.inv.roots_live (fun t ht _ => ht) ?_
  exact .inr fun hexpired => h.inv.alive a _ hp (by simp) ⟨hid.symm.trans hexpired.1, rfl⟩

theorem zwpLinuxBufferParamsAdd_fine (h : c.Ready) (hs : c.sessions k = some s)
    (hlive : c.Live k sender .zwpLinuxBufferParamsV1)
    (plane offset stride modifierHi modifierLo : Nat) :
    Fine (c.zwpLinuxBufferParamsAdd k env sender plane offset stride modifierHi modifierLo) := by
  obtain ⟨a, p, ha, hp, -⟩ := live_params h hs hlive
  unfold zwpLinuxBufferParamsAdd
  simp only [objData_eq hs, ha, readParams_eq hp, bind, Except.bind]
  split
  · split
    · exact Ready.fine (h.writeParams hp (by rfl)) .err
    · exact Ready.fine (h.writeParams hp (by rfl)) .forward
  · exact .inl rfl

theorem zwpLinuxBufferParamsCreateImmed_fine (h : c.Ready) (hs : c.sessions k = some s)
    (hlive : c.Live k sender .zwpLinuxBufferParamsV1) (hid : Reserved s id .wlBuffer)
    (width height : Int) (format : Nat) :
    Fine (c.zwpLinuxBufferParamsCreateImmed k env sender id width height format) := by
  obtain ⟨a, p, ha, hp, -⟩ := live_params h hs hlive
  unfold zwpLinuxBufferParamsCreateImmed
  simp only [objData_eq hs, ha, readParams_eq hp, bind, Except.bind]
  split
  · exact h.fine .err
  · split
    · refine Ready.register (h.writeParams hp (by rfl)) hs hid rfl rfl rfl ⟨?_, by simp⟩
      rintro buf ⟨⟩
    · exact .inl rfl

/-! ### Destroying objects -/

/-- What a destroy handler has to do with the entry of its object. -/
def Destroys (c : CaptureSession) (k id : Nat) (r : Except Fault (CaptureSession × Action)) : Prop :=
  ∃ c', r = .ok (c', .forward) ∧ c'.Ready ∧
    c'.sessions = (c.setObjData k ((c.objData k).remove id)).sessions

theorem Destroys.fine {r : Except Fault (CaptureSession × Action)} (h : c.Destroys k id r) :
    Fine r := by
  obtain ⟨c', hc', hready, -⟩ := h
  exact .inr ⟨c', .forward, hc', hready⟩

/-- The state in which a destroy handler decides whether to free its object. -/
theorem Ready.unname (h : c.Ready) (hs : c.sessions k = some s) (ha : s.objData.lookup id = some a)
    (ho : c.heap.objs a = some o) (o' : Obj) (hid : o'.id = 0)
    (hinterface : o'.interface = o.interface) (hrefs : o'.refs = o.refs)
    (hdependents : o'.dependents = o.dependents) (hok : c.RefsOk a o → c.RefsOk a o') :
    Inv [a] (c.queue.map Frame.buf) ((c.setObjData k (s.objData.remove id)).write a o') ∧
      ((c.setObjData k (s.objData.remove id)).write a o').Queued ∧
      ((c.setObjData k (s.objData.remove id)).write a o').heap.objs a = some o' := by
  refine ⟨h.inv.unname hs ha ho hid hinterface hrefs hdependents hok, ?_, ?_⟩
  · exact Queued.write h.queued ho hinterface
  · exact (objs_write ho a).trans (if_pos rfl)

theorem wlBufferDestroy_destroys (h : c.Ready) (hs : c.sessions k = some s) {b : Buffer}
    (ha : s.objData.lookup id = some a) (hb : c.heap.objs a = some (.buffer b))
    (hid : b.id = id) (hne : id ≠ 0) : c.Destroys k id (c.wlBufferDestroy k id) := by
  obtain ⟨hinv, hqueued, hb'⟩ := h.unname hs ha hb (.buffer { b with id := 0 }) rfl rfl rfl rfl
    (fun hok => hok)
  unfold Destroys wlBufferDestroy
  simp only [objData_eq hs, ha, readBuffer_eq hb, hid, if_neg hne, bind, Except.bind, pure,
    Except.pure]
  split
  · next hdependents =>
    obtain ⟨c', hc', hinv', hkeep, hqueue⟩ := hinv.wlBufferFree hb' rfl hdependents
    rw [hc']
    refine ⟨c', rfl, hqueued.ready (hqueue ▸ hinv') hkeep.toSameNames ?_, hkeep.sessions⟩
    exact fun f hf => hqueue ▸ hf
  · next hdependents =>
    exact ⟨_, rfl, ⟨hinv.revive hb' fun hexpired => hdependents hexpired.2, hqueued⟩, rfl⟩

theorem wlSurfaceDestroy_destroys (h : c.Ready) (hs : c.sessions k = some s) {x : Surface}
    (ha : s.objData.lookup id = some a) (hx : c.heap.objs a = some (.surface x))
    (hid : x.id = id) (hne : id ≠ 0) : c.Destroys k id (c.wlSurfaceDestroy k id) := by
  obtain ⟨hinv, hqueued, hx'⟩ := h.unname hs ha hx (.surface { x with id := 0 }) rfl rfl rfl rfl
    (fun hok => hok)
  obtain ⟨c₁, hc₁, hinv₁, hnames, hx₁, hqueue⟩ := hinv.wlSurfaceUnattach hx'
  replace hqueue : c₁.queue = c.queue := hqueue
  have hready {c' : CaptureSession} (hinv' : Inv [] (c.queue.map Frame.buf) c')
      (hnames' : SameNames c₁ c') (hqueue' : c'.queue = c.queue) : c'.Ready := by
    refine hqueued.ready (hqueue' ▸ hinv') (hnames.trans hnames') ?_
    exact fun f hf => hqueue' ▸ hf
  unfold Destroys wlSurfaceDestroy
  simp only [objData_eq hs, ha, readSurface_eq hx, hid, if_neg hne, bind, Except.bind, pure,
    Except.pure, hc₁, readSurface_eq hx₁]
  split
  · next hdependents =>
    have hexpired : (Obj.surface { x with id := 0, buf := none }).Expired := ⟨rfl, hdependents⟩
    have hinv₂ := hinv₁.free hx₁ hexpired hexpired
    refine ⟨c₁.free a (.surface { x with id := 0, buf := none }), ?_, ?_, hnames.sessions⟩
    · simp [wlSurfaceFree, readSurface_eq hx₁, bind, Except.bind, pure, Except.pure]
    · exact hready hinv₂ (.free hx₁ rfl) hqueue
  · next hdependents =>
    refine ⟨c₁, rfl, hready ?_ (Keeps.refl c₁).toSameNames hqueue, hnames.sessions⟩
    exact hinv₁.revive hx₁ fun hexpired => hdependents hexpired.2

theorem wlShmPoolDestroy_destroys (h : c.Ready) (hs : c.sessions k = some s) {p : Pool}
    (ha : s.objData.lookup id = some a) (hp : c.heap.objs a = some (.pool p))
    (hid : p.id = id) (hne : id ≠ 0) : c.Destroys k id (c.wlShmPoolDestroy k id) := by
  obtain ⟨hinv, hqueued, hp'⟩ := h.unname hs ha hp (.pool { p with id := 0 }) rfl rfl rfl rfl
    (fun hok => hok)
  unfold Destroys wlShmPoolDestroy
  simp only [objData_eq hs, ha, readPool_eq hp, hid, if_neg hne, bind, Except.bind, pure,
    Except.pure]
  split
  · next hdependents =>
    have hexpired : (Obj.pool { p with id := 0 }).Expired := ⟨rfl, hdependents⟩
    rw [wlShmPoolFree_eq hp' rfl hdependents]
    refine ⟨_, rfl, ?_, rfl⟩
    exact hqueued.ready (hinv.free hp' hexpired hexpired) (.free hp' rfl) (fun f hf => hf)
  · next hdependents =>
    exact ⟨_, rfl, ⟨hinv.revive hp' fun hexpired => hdependents hexpired.2, hqueued⟩, rfl⟩

/-- The handler frees a params object that still has its id. -/
theorem zwpLinuxBufferParamsDestroy_destroys (h : c.Ready) (hs : c.sessions k = some s)
    {p : Params} (ha : s.objData.lookup id = some a) (hp : c.heap.objs a = some (.params p))
    (hid : p.id = id) : c.Destroys k id (c.zwpLinuxBufferParamsDestroy k id) := by
  obtain ⟨hinv, hqueued, hp'⟩ := h.unname hs ha hp (.params { p with id := 0 }) rfl rfl rfl rfl
    (fun hok => hok)
  have hready : (((c.setObjData k (s.objData.remove id)).write a (.params { p with id := 0 })).free a
      (.params { p with id := 0 })).Ready :=
    hqueued.ready (hinv.free hp' ⟨rfl, rfl⟩ trivial) (.free hp' rfl) (fun f hf => hf)
  have hsame : (c.setObjData k (s.objData.remove id)).free a (.params p) =
      { ((c.setObjData k (s.objData.remove id)).write a (.params { p with id := 0 })).free a
          (.params { p with id := 0 }) with freed := c.freed ++ [(a, .params p)] } := by
    unfold free write
    dsimp only
    rw [Heap.set_set]
    rfl
  unfold Destroys zwpLinuxBufferParamsDestroy
  simp only [objData_eq hs, ha, readParams_eq hp, hid, bind, Except.bind, pure, Except.pure]
  refine ⟨_, rfl, ?_, rfl⟩
  rw [hsame]
  refine ⟨hready.inv.refreed ?_ ?_, hready.queued⟩
  · change (List.map Prod.fst (c.freed ++ _)).Perm (List.map Prod.fst (c.freed ++ _))
    rw [List.map_append, List.map_append]
    rfl
  · intro y hy
    rcases List.mem_append.mp hy with hmem | hmem
    · exact h.inv.freed_ready y hmem
    · obtain rfl : y = (a, .params p) := by simpa using hmem
      trivial

/-! ### Surfaces -/

/-- The object of an id stays the same while names do. -/
theorem SameNames.objs {c' : CaptureSession} (h : SameNames c c') (ho : c.heap.objs a = some o)
    (hid : o.id ≠ 0) : ∃ o', c'.heap.objs a = some o' ∧ o'.interface = o.interface := by
  have hnamed := (h.named a).trans (named_eq ho hid)
  unfold CaptureSession.named at hnamed
  obtain ⟨o', ho', hsome⟩ := Option.bind_eq_some_iff.mp hnamed
  split at hsome
  · cases hsome
  · injection hsome with hpair
    exact ⟨o', ho', congrArg Prod.snd hpair⟩

/-- A surface without a buffer is given one, and the buffer counts it. -/
theorem Inv.attach {dead roots : List Addr} (h : Inv dead roots c) {x : Surface} {b : Buffer}
    {surf : Addr} (hx : c.heap.objs surf = some (.surface x)) (hnone : x.buf = none)
    (hb : c.heap.objs a = some (.buffer b)) (howner : c.owner a = c.owner surf) :
    Inv dead roots ((c.write surf (.surface { x with buf := some a })).write a
      (.buffer { b with dependents := b.dependents + 1 })) := by
  have hne : surf ≠ a := surface_ne_buffer hx hb
  have hinc := h.inc hb (.buffer b (b.dependents + 1)) rfl
  have hx' : (c.write a (.buffer { b with dependents := b.dependents + 1 })).heap.objs surf =
      some (.surface x) := (objs_write_ne hne).trans hx
  rw [write_comm hne]
  refine hinc.write hx' rfl rfl ?_ ?_ ?_ (fun t ht _ => ht) ?_
  · rintro t ⟨⟩
    exact ⟨kind_eq ((objs_write hb a).trans (if_pos rfl)), howner⟩
  · intro t
    simp only [Obj.refs, hnone, Option.toList_none, Option.toList_some, List.nil_append,
      List.singleton_append, Obj.dependents]
  · exact fun t ht => hinc.roots_live t (List.mem_cons_of_mem _ ht)
  · by_cases hdead : surf ∈ dead
    · exact .inl hdead
    · exact .inr fun hexpired => h.alive surf _ hx hdead hexpired

theorem wlSurfaceAttach_fine (h : c.Ready) (hs : c.sessions k = some s)
    (hlive : c.Live k sender .wlSurface) {buf : Nat}
    (hbuf : buf = 0 ∨ c.objType k buf = some .wlBuffer) (x y : Int) :
    Fine (c.wlSurfaceAttach k sender buf x y) := by
  obtain ⟨surf, v, hsurf, hv, -, -, howner⟩ := live_surface h hs hlive
  obtain ⟨c₁, hc₁, hinv₁, hnames, hv₁, hqueue⟩ := h.inv.wlSurfaceUnattach hv
  have hready₁ : c₁.Ready :=
    h.queued.ready (hqueue ▸ hinv₁) hnames (fun f hf => hqueue ▸ hf)
  unfold wlSurfaceAttach
  simp only [objData_eq hs, hsurf, hc₁, readSurface_eq hv₁, bind, Except.bind]
  cases hfound : s.objData.lookup buf with
  | none =>
      have hsame : c₁.write surf (.surface { v with buf := none }) = c₁ := by
        unfold write
        rw [Heap.set_self hv₁]
      exact .inr ⟨c₁, .forward, by rw [hsame]; rfl, hready₁⟩
  | some a =>
      obtain ⟨o, ho, hid, hne, -, howner', htype⟩ := h.inv.entry hs hfound
      have hinterface : o.interface = .wlBuffer := by
        have hsome := hbuf.resolve_left hne
        rw [objType, hs, Option.bind_some, htype] at hsome
        exact Option.some.inj hsome
      obtain ⟨o₁, ho₁, hinterface₁⟩ := hnames.objs ho (hid ▸ hne)
      obtain ⟨b, rfl⟩ : ∃ b, o₁ = .buffer b := by
        rw [hinterface] at hinterface₁
        cases o₁ with
        | buffer b => exact ⟨b, rfl⟩
        | _ => cases hinterface₁
      have hne' : a ≠ surf := (surface_ne_buffer hv₁ ho₁).symm
      have howner₁ : c₁.owner a = c₁.owner surf := by
        rw [hnames.owner, howner, howner']
      have hb₁ : (c₁.write surf (.surface { v with buf := some a })).heap.objs a =
          some (.buffer b) := (objs_write_ne hne').trans ho₁
      dsimp only
      split
      · simp only [readBuffer_eq hb₁]
        have hinv₂ := hready₁.inv.attach hv₁ rfl ho₁ howner₁
        refine .inr ⟨_, .forward, rfl, hinv₂, ?_⟩
        exact Queued.write (hready₁.queued.write hv₁ (by rfl)) hb₁ (by rfl)
      · exact .inl rfl

theorem Ready.unattach (h : c.Ready) {surf : Addr} {x : Surface}
    (hx : c.heap.objs surf = some (.surface x)) :
    ∃ c', c.wlSurfaceUnattach surf = .ok c' ∧ c'.Ready := by
  obtain ⟨c', hc', hinv, hnames, -, hqueue⟩ := h.inv.wlSurfaceUnattach hx
  exact ⟨c', hc', h.queued.ready (hqueue ▸ hinv) hnames (fun f hf => hqueue ▸ hf)⟩

/-- A frame of the attached buffer joins the queue.  The frees of `rbuf_push` cannot free
the buffer, which the surface still counts on. -/
theorem Ready.pushFrame (h : c.Ready) (env : Env) (b : Buffer) {surf : Addr} {x : Surface}
    (hx : c.heap.objs surf = some (.surface x)) (hbuf : x.buf = some a)
    (howner : c.owner surf = k) :
    ∃ c₁ b₁, c.freeFrames env.pushExpired = .ok c₁ ∧ Keeps c c₁ ∧
      c₁.heap.objs a = some (.buffer b₁) ∧
      Ready
        { c₁.write a (.buffer { b₁ with dependents := b₁.dependents + 1 }) with
          queue := c₁.queue ++ [frameOf b a k], frameCount := c₁.frameCount + 1 } := by
  obtain ⟨c₁, hc₁, hready₁, hkeep⟩ := h.freeFrames env.pushExpired
  have hx₁ := hkeep.surfaces surf x hx
  obtain ⟨hkind, howner₁⟩ := hready₁.inv.refs surf _ hx₁ a hbuf
  obtain ⟨b₁, hb₁⟩ := buffer_of_kind hkind
  have hinc := hready₁.inv.inc hb₁ (.buffer b₁ (b₁.dependents + 1)) rfl
  have hperm : (a :: c₁.queue.map Frame.buf).Perm ((c₁.queue ++ [frameOf b a k]).map Frame.buf) := by
    rw [List.map_append]
    exact (List.perm_append_singleton a _).symm
  have hinv : Inv [] ((c₁.queue ++ [frameOf b a k]).map Frame.buf)
      (c₁.write a (.buffer { b₁ with dependents := b₁.dependents + 1 })) := hinc.perm hperm
  have hqueued : (c₁.write a (.buffer { b₁ with dependents := b₁.dependents + 1 })).Queued :=
    hready₁.queued.write hb₁ rfl
  refine ⟨c₁, b₁, hc₁, hkeep, hb₁, { hinv with }, ?_⟩
  intro f hf
  rcases List.mem_append.mp hf with hmem | hmem
  · exact hqueued f hmem
  · obtain rfl : f = frameOf b a k := by simpa using hmem
    refine ⟨kind_eq ((objs_write hb₁ a).trans (if_pos rfl)), ?_⟩
    change k = c₁.owner a
    rw [howner₁, hkeep.owner, howner]

/-- The part of `wl_surface_commit` that puts a frame into the queue. -/
theorem commitPush_fine (h : c.Ready) (env : Env) (b : Buffer) {surf : Addr} {x : Surface}
    (hx : c.heap.objs surf = some (.surface x)) (hbuf : x.buf = some a)
    (howner : c.owner surf = k) :
    Fine (do
      let c ← pushFrame c env (frameOf b a k)
      let b ← c.readBuffer a
      let c := c.write a (.buffer { b with dependents := b.dependents + 1 })
      let c ← wlSurfaceUnattach { c with frameCount := c.frameCount + 1 } surf
      return (c, .forward)) := by
  obtain ⟨c₁, b₁, hc₁, hkeep, hb₁, hready⟩ := h.pushFrame env b hx hbuf howner
  have hx₁ := hkeep.surfaces surf x hx
  obtain ⟨c₂, hc₂, hready₂⟩ :=
    hready.unattach ((objs_write_ne (surface_ne_buffer hx₁ hb₁)).trans hx₁)
  have hread : readBuffer { c₁ with queue := c₁.queue ++ [frameOf b a k] } a = .ok b₁ :=
    readBuffer_eq hb₁
  refine .inr ⟨c₂, .forward, ?_, hready₂⟩
  simp only [pushFrame, hc₁, hread, bind, Except.bind, pure, Except.pure]
  exact congrArg (Except.map fun c => (c, Action.forward)) hc₂

/-- The attached buffer is handed back, to the session of the surface. -/
theorem Ready.handBack (h : c.Ready) {surf : Addr} {x : Surface} {b : Buffer}
    (hx : c.heap.objs surf = some (.surface x)) (hbuf : x.buf = some a)
    (hb : c.heap.objs a = some (.buffer b)) (howner : c.owner surf = k) :
    k = c.owner a ∧
      ∃ c', c.wlBufferRelease a k = .ok c' ∧ c'.Ready ∧ Keeps c c' ∧ c'.queue = c.queue := by
  obtain ⟨-, howner'⟩ := h.inv.refs surf _ hx a hbuf
  have hk : k = c.owner a := howner.symm.trans howner'.symm
  have hinv : Inv [a] (c.queue.map Frame.buf) c := h.inv.grow (by simp)
  obtain ⟨c', hc', hinv', hkeep, hqueue⟩ := hinv.wlBufferRelease hb hk
  refine ⟨hk, c', hc', h.queued.ready (hqueue ▸ hinv') hkeep.toSameNames ?_, hkeep, hqueue⟩
  exact fun f hf => hqueue ▸ hf

theorem wlSurfaceCommit_fine (h : c.Ready) (hs : c.sessions k = some s)
    (hlive : c.Live k sender .wlSurface) : Fine (c.wlSurfaceCommit k env sender) := by
  obtain ⟨surf, x, hsurf, hx, -, -, howner⟩ := live_surface h hs hlive
  unfold wlSurfaceCommit
  simp only [objData_eq hs, hsurf, readSurface_eq hx, bind, Except.bind]
  cases hbuf : x.buf with
  | none => exact h.fine .forward
  | some a =>
      obtain ⟨b, hb⟩ := buffer_of_kind (h.inv.refs surf _ hx a hbuf).1
      simp only [readBuffer_eq hb]
      split
      · rw [if_neg (h.inv.refs a _ hb).2]
        split
        · exact h.fine .err
        · exact commitPush_fine h env b hx hbuf howner
      · -- the buffer is handed back at once
        obtain ⟨-, c₁, hc₁, hready₁, hkeep₁, -⟩ := h.handBack hx hbuf hb howner
        rw [hc₁]
        dsimp only
        split
        · obtain ⟨c₂, hc₂, hready₂⟩ := hready₁.unattach (hkeep₁.surfaces surf x hx)
          rw [hc₂]
          exact hready₂.fine .forward
        · exact hready₁.fine .err

end CaptureSession

end Stratus.Capture
