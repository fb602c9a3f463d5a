import Stratus.Capture.Releases

/-! The release of buffers in every run of the Capture module: what has been sent is what
the events ask for, and a frame that was queued is freed once. -/
namespace Stratus.Capture

open Stratus.Lib Proxy

namespace CaptureSession

variable {c c' c'' : CaptureSession} {dead roots : List Addr} {a : Addr} {b : Buffer} {k : Nat}
  {s : Session Addr} {env : Env} {r : Request}

/-! ### Ids -/

/-- A buffer is found under its id, in the session it was created in, and nowhere else. -/
theorem Inv.lookup_iff (h : Inv dead roots c) (hb : c.heap.objs a = some (.buffer b))
    (hs : c.sessions k = some s) (id : Nat) :
    s.objData.lookup id = some a ↔ k = c.owner a ∧ b.id = id ∧ id ≠ 0 := by
  constructor
  · intro hlookup
    obtain ⟨o, ho, hid, hne, -, howner, -⟩ := h.entry hs hlookup
    rw [hb] at ho
    cases ho
    exact ⟨howner.symm, hid, hne⟩
  · rintro ⟨rfl, rfl, hne⟩
    obtain ⟨s', hs', hlookup⟩ := h.owned a b.id .wlBuffer (named_eq hb hne)
    rw [hs] at hs'
    cases hs'
    exact hlookup

theorem Inv.handback_release (h : Inv dead roots c) (hb : c.heap.objs a = some (.buffer b))
    (hk : k = c.owner a) :
    Handback.release { buf := a, conn := k, sessions := c.sessions } =
      if b.id = 0 then none else some (k, b.id) := by
  split
  · next hid =>
    -- a destroyed buffer is in no map
    rw [← Option.not_isSome_iff_eq_none, Handback.release_isSome_iff]
    rintro ⟨s, id, hs, hlookup⟩
    obtain ⟨-, hid', hne⟩ := (h.lookup_iff hb hs id).mp hlookup
    exact hne (hid'.symm.trans hid)
  · next hid =>
    obtain ⟨s, hs, hlookup⟩ := h.owned a b.id .wlBuffer (named_eq hb hid)
    rw [← hk] at hs
    have hsome : (Handback.release { buf := a, conn := k, sessions := c.sessions }).isSome :=
      (Handback.release_isSome_iff _).mpr ⟨s, b.id, hs, hlookup⟩
    obtain ⟨x, hx⟩ := Option.isSome_iff_exists.mp hsome
    obtain ⟨hconn, s', hs', hlookup'⟩ := Handback.release_eq_some hx
    obtain ⟨-, hid', -⟩ := (h.lookup_iff hb hs' x.2).mp hlookup'
    rw [hx]
    exact congrArg some (Prod.ext hconn hid'.symm)

/-! ### The log of one step -/

/-- The events account for what is sent and for the frames of the queue. -/
structure Logs (c c' : CaptureSession) (events : List Event) : Prop where
  released : c'.released = c.released ++ events.filterMap Event.release
  frames : (c'.queue + events.filterMap Event.freedFrame : Multiset Frame) =
    c.queue + events.filterMap Event.queuedFrame
  /-- No frame is freed before it is queued. -/
  order : ∀ p, p <+: events →
    (p.filterMap Event.freedFrame : Multiset Frame) ≤ c.queue + p.filterMap Event.queuedFrame

theorem Silent.logs (h : Silent c c') : Logs c c' [] where
  released := by simp [h.released]
  frames := by simp [h.queue]
  order p hp := by
    rw [List.prefix_nil.mp hp]
    exact Multiset.zero_le _

theorem Logs.single {e : Event} (hreleased : c'.released = c.released ++ e.release.toList)
    (hframes : (c'.queue + e.freedFrame.toList : Multiset Frame) = c.queue + e.queuedFrame.toList) :
    Logs c c' [e] := by
  have hlist {β : Type} (f : Event → Option β) : [e].filterMap f = (f e).toList := by
    cases hf : f e <;> simp [hf]
  refine ⟨by rw [hlist, hreleased], by rw [hlist, hlist, hframes], fun p hp => ?_⟩
  rcases List.prefix_cons_iff.mp hp with rfl | ⟨t, rfl, ht⟩
  · exact Multiset.zero_le _
  · rw [List.prefix_nil.mp ht, hlist, hlist, ← hframes]
    exact Multiset.le_add_left _ _

theorem Logs.trans {events events' : List Event} (h : Logs c c' events) (h' : Logs c' c'' events') :
    Logs c c'' (events ++ events') where
  released := by rw [h'.released, h.released, List.filterMap_append, List.append_assoc]
  frames := by
    simp only [List.filterMap_append, ← Multiset.coe_add]
    calc (c''.queue + (events.filterMap Event.freedFrame + events'.filterMap Event.freedFrame) :
          Multiset Frame)
        = c'.queue + events'.filterMap Event.queuedFrame + events.filterMap Event.freedFrame := by
          rw [← h'.frames, add_comm (Multiset.ofList (events.filterMap _)), add_assoc]
      _ = c.queue + (events.filterMap Event.queuedFrame + events'.filterMap Event.queuedFrame) := by
          rw [add_right_comm, h.frames, add_assoc]
  order p hp := by
    rcases List.prefix_or_prefix_of_prefix hp (List.prefix_append events events') with hp | ⟨p', rfl⟩
    · exact h.order p hp
    · have hp' : p' <+: events' := (List.prefix_append_right_inj events).mp hp
      simp only [List.filterMap_append, ← Multiset.coe_add]
      calc (events.filterMap Event.freedFrame + p'.filterMap Event.freedFrame : Multiset Frame)
          ≤ events.filterMap Event.freedFrame + (c'.queue + p'.filterMap Event.queuedFrame) :=
            Multiset.add_le_add_left (h'.order p' hp')
        _ = c'.queue + events.filterMap Event.freedFrame + p'.filterMap Event.queuedFrame := by
            rw [← add_assoc, add_comm (Multiset.ofList (events.filterMap _))]
        _ = c.queue + (events.filterMap Event.queuedFrame + p'.filterMap Event.queuedFrame) := by
            rw [h.frames, add_assoc]

theorem wlBufferRelease_released (hb : c.heap.objs a = some (.buffer b)) {conn : Nat}
    (hc' : c.wlBufferRelease a conn = .ok c') :
    c'.released = c.released ++ (if b.id = 0 then none else some (conn, b.id)).toList ∧
      c'.queue = c.queue := by
  unfold wlBufferRelease at hc'
  simp only [readBuffer_eq hb, bind, Except.bind] at hc'
  by_cases hid : b.id = 0
  · simp only [hid, ↓reduceIte, true_and, pure, Except.pure] at hc'
    rw [if_pos hid, Option.toList_none, List.append_nil]
    split at hc'
    · have hsilent := wlBufferFree_silent c a c' hc'
      exact ⟨hsilent.released, hsilent.queue⟩
    · cases hc'
      exact ⟨rfl, rfl⟩
  · simp only [if_neg hid, pure, Except.pure,
      if_neg (fun hand : b.id = 0 ∧ b.dependents = 0 => hid hand.1)] at hc'
    rw [if_neg hid]
    by_cases hconn : (c.sessions conn).isSome
    · rw [if_pos hconn] at hc'
      cases hc'
      exact ⟨rfl, rfl⟩
    · rw [if_neg hconn] at hc'
      cases hc'

theorem freeFrame_released {f : Frame} (hb : c.heap.objs f.buf = some (.buffer b))
    (hc' : c.freeFrame f = .ok c') :
    c'.released = c.released ++ (if b.id = 0 then none else some (f.conn, b.id)).toList := by
  unfold freeFrame at hc'
  simp only [readBuffer_eq hb, bind, Except.bind] at hc'
  cases hn : decrement b.dependents with
  | error fault =>
      rw [hn] at hc'
      cases hc'
  | ok n =>
      rw [hn] at hc'
      have hb' : (c.write f.buf (.buffer { b with dependents := n })).heap.objs f.buf =
          some (.buffer { b with dependents := n }) := (objs_write hb f.buf).trans (if_pos rfl)
      exact (wlBufferRelease_released hb' hc').1

/-- One frame leaves the queue, and its buffer is released if it is alive. -/
theorem Ready.freeOne_logs (h : c.Ready) {i : Nat} {f : Frame} (hf : c.queue[i]? = some f)
    (hc' : c.freeFrame f = .ok c') (hqueue : c'.queue = c.queue) :
    Logs c { c' with queue := c'.queue.eraseIdx i } [.freed f c.sessions] := by
  obtain ⟨hkind, hconn⟩ := h.queued f (List.mem_of_getElem? hf)
  obtain ⟨b, hb⟩ := buffer_of_kind hkind
  obtain ⟨hlt, hget⟩ := List.getElem?_eq_some_iff.mp hf
  refine .single ?_ ?_
  · change c'.released = _ ++ (Handback.release _).toList
    rw [freeFrame_released hb hc', h.inv.handback_release hb hconn]
  · change ((c'.queue.eraseIdx i : Multiset Frame) + Multiset.ofList [f]) = c.queue + 0
    rw [hqueue, add_zero, Multiset.coe_add, Multiset.coe_eq_coe]
    exact (List.perm_append_singleton f _).trans
      (hget ▸ List.getElem_cons_eraseIdx_perm hlt)

theorem Ready.freeFrames_logs (h : c.Ready) (places : List Nat) (hc' : c.freeFrames places = .ok c') :
    Logs c c' (c.freeEvents places) := by
  induction places generalizing c with
  | nil =>
      cases hc'
      exact (Silent.refl _).logs
  | cons i rest ih =>
      unfold CaptureSession.freeFrames at hc'
      unfold freeEvents
      cases hf : c.queue[i]? with
      | none =>
          rw [hf] at hc'
          exact ih h hc'
      | some f =>
          obtain ⟨c₁, hc₁, hready, -, hqueue⟩ := h.freeOne hf
          simp only [hf, hc₁, bind, Except.bind] at hc'
          simp only [hc₁]
          exact (h.freeOne_logs hf hc₁ hqueue).trans (ih hready hc')

/-! ### Commits -/

section Commit

variable {sender : Nat} {surf : Addr} {x : Surface} {action : Action}

theorem attachedBuffer_none (hs : c.sessions k = some s) (hsurf : s.objData.lookup sender = some surf)
    (hx : c.heap.objs surf = some (.surface x)) (hbuf : x.buf = none) :
    c.attachedBuffer k sender = none := by
  simp [attachedBuffer, objData_eq hs, hsurf, hx, hbuf]

theorem attachedBuffer_some (hs : c.sessions k = some s) (hsurf : s.objData.lookup sender = some surf)
    (hx : c.heap.objs surf = some (.surface x)) (hbuf : x.buf = some a)
    (hb : c.heap.objs a = some (.buffer b)) : c.attachedBuffer k sender = some (a, b) := by
  simp [attachedBuffer, objData_eq hs, hsurf, hx, hbuf, hb]

/-- The surface has no buffer once it is unattached. -/
theorem Ready.unattached (h : c.Ready) (hs : c.sessions k = some s)
    (hsurf : s.objData.lookup sender = some surf) (hx : c.heap.objs surf = some (.surface x))
    (hc' : c.wlSurfaceUnattach surf = .ok c') :
    Silent c c' ∧ c'.attachedBuffer k sender = none := by
  refine ⟨wlSurfaceUnattach_silent c surf c' hc', ?_⟩
  obtain ⟨c₁, hc₁, -, hnames, hx₁, -⟩ := h.inv.wlSurfaceUnattach hx
  rw [hc'] at hc₁
  cases hc₁
  exact attachedBuffer_none (by rw [hnames.sessions, hs]) hsurf hx₁ rfl

/-- A frame is queued. -/
theorem commitPush_logs (h : c.Ready) (hs : c.sessions k = some s)
    (hsurf : s.objData.lookup sender = some surf) (hx : c.heap.objs surf = some (.surface x))
    (hbuf : x.buf = some a) (howner : c.owner surf = k)
    (hc' : (do
      let c ← pushFrame c env (frameOf b a k)
      let b ← c.readBuffer a
      let c := c.write a (.buffer { b with dependents := b.dependents + 1 })
      let c ← wlSurfaceUnattach { c with frameCount := c.frameCount + 1 } surf
      return (c, .forward)) = Except.ok (c', action)) :
    Logs c c' (c.freeEvents env.pushExpired ++ [.queued (frameOf b a k)]) ∧
      c'.attachedBuffer k sender = none := by
  obtain ⟨c₁, b₁, hc₁, hkeep, hb₁, hready⟩ := h.pushFrame env b hx hbuf howner
  have hx₁ := hkeep.surfaces surf x hx
  have hread : readBuffer { c₁ with queue := c₁.queue ++ [frameOf b a k] } a = .ok b₁ :=
    readBuffer_eq hb₁
  have hs₁ : c₁.sessions k = some s := by rw [hkeep.sessions, hs]
  simp only [pushFrame, hc₁, hread, bind, Except.bind, pure, Except.pure] at hc'
  split at hc'
  · cases hc'
  · next c₂ hc₂ =>
    cases hc'
    obtain ⟨hsilent, hnone⟩ := hready.unattached hs₁ hsurf
      ((objs_write_ne (surface_ne_buffer hx₁ hb₁)).trans hx₁) hc₂
    have hpush : Logs c₁ c' [.queued (frameOf b a k)] := by
      refine .single ?_ ?_
      · exact hsilent.released.trans (List.append_nil _).symm
      · change (c'.queue : Multiset Frame) + 0 = c₁.queue + Multiset.ofList [frameOf b a k]
        rw [hsilent.queue, add_zero]
        rfl
    exact ⟨(h.freeFrames_logs _ hc₁).trans hpush, hnone⟩

/-- Freeing frames takes nothing from a surface. -/
theorem freeEvents_taken (c : CaptureSession) (places : List Nat) :
    (c.freeEvents places).filterMap Event.taken = [] := by
  induction places generalizing c with
  | nil => rfl
  | cons i rest ih =>
      unfold freeEvents
      split
      · exact ih c
      · rw [List.filterMap_cons_none rfl]
        split
        · exact ih _
        · rfl

/-- A buffer of the wrong size is handed back. -/
theorem commitRefuse_logs (h : c.Ready) (hs : c.sessions k = some s)
    (hsurf : s.objData.lookup sender = some surf) (hx : c.heap.objs surf = some (.surface x))
    (hbuf : x.buf = some a) (hb : c.heap.objs a = some (.buffer b)) (howner : c.owner surf = k)
    (hc' : (do
      let c ← wlBufferRelease c a k
      if env.sent then
        let c ← wlSurfaceUnattach c surf
        return (c, .forward)
      else return (c, .err)) = Except.ok (c', action)) :
    if env.sent then
      Logs c c' [.refused { buf := a, conn := k, sessions := c.sessions }] ∧
        c'.attachedBuffer k sender = none
    else
      Logs c c' [.unsent { buf := a, conn := k, sessions := c.sessions }] ∧
        (c'.attachedBuffer k sender).isSome := by
  obtain ⟨hk, c₁, hc₁, hready₁, hkeep₁, hqueue₁⟩ := h.handBack hx hbuf hb howner
  have hs₁ : c₁.sessions k = some s := by rw [hkeep₁.sessions, hs]
  have hx₁ := hkeep₁.surfaces surf x hx
  have hreleased : c₁.released = c.released ++
      (Handback.release { buf := a, conn := k, sessions := c.sessions }).toList := by
    rw [h.inv.handback_release hb hk]
    exact (wlBufferRelease_released hb hc₁).1
  simp only [hc₁, bind, Except.bind, pure, Except.pure] at hc'
  split
  · next hsent =>
    rw [if_pos hsent] at hc'
    split at hc'
    · cases hc'
    · next c₂ hc₂ =>
      cases hc'
      obtain ⟨hsilent, hnone⟩ := hready₁.unattached hs₁ hsurf hx₁ hc₂
      refine ⟨.single (hsilent.released.trans hreleased) ?_, hnone⟩
      rw [hsilent.queue, hqueue₁]
      rfl
  · next hsent =>
    rw [if_neg hsent] at hc'
    cases hc'
    obtain ⟨b₁, hb₁⟩ := buffer_of_kind (hready₁.inv.refs surf _ hx₁ a hbuf).1
    refine ⟨.single hreleased ?_, ?_⟩
    · rw [hqueue₁]
      rfl
    · rw [attachedBuffer_some hs₁ hsurf hx₁ hbuf hb₁]
      rfl

theorem wlSurfaceCommit_logs (h : c.Ready) (hs : c.sessions k = some s)
    (hlive : c.Live k sender .wlSurface) (hc' : c.wlSurfaceCommit k env sender = .ok (c', action)) :
    Logs c c' (c.handlerEvents k env (.surfaceCommit sender)) ∧
      (c.handlerEvents k env (.surfaceCommit sender)).filterMap Event.taken =
        c.takes c' (.message k env (.surfaceCommit sender)) := by
  obtain ⟨surf, x, hsurf, hx, -, -, howner⟩ := live_surface h hs hlive
  unfold wlSurfaceCommit at hc'
  simp only [objData_eq hs, hsurf, readSurface_eq hx, bind, Except.bind] at hc'
  cases hbuf : x.buf with
  | none =>
      rw [hbuf] at hc'
      cases hc'
      rw [handlerEvents, takes, attachedBuffer_none hs hsurf hx hbuf]
      exact ⟨(Silent.refl _).logs, rfl⟩
  | some a =>
      obtain ⟨b, hb⟩ := buffer_of_kind (h.inv.refs surf _ hx a hbuf).1
      have hattached := attachedBuffer_some hs hsurf hx hbuf hb
      rw [handlerEvents, takes, hattached]
      simp only [hbuf, readBuffer_eq hb] at hc'
      unfold commitEvents
      dsimp only [Option.map_some]
      split at hc'
      · next haccepts =>
        rw [if_neg (h.inv.refs a _ hb).2] at hc'
        rw [if_pos haccepts]
        split at hc'
        · next hfull =>
          cases hc'
          rw [if_pos hfull, hattached]
          exact ⟨(Silent.refl _).logs, rfl⟩
        · next hroom =>
          obtain ⟨hlogs, hnone⟩ := commitPush_logs h hs hsurf hx hbuf howner hc'
          rw [if_neg hroom, hnone, List.filterMap_append, freeEvents_taken]
          exact ⟨hlogs, rfl⟩
      · next haccepts =>
        have hrefuse := commitRefuse_logs h hs hsurf hx hbuf hb howner hc'
        rw [if_neg haccepts]
        split at hrefuse
        · next hsent =>
          rw [if_pos hsent, hrefuse.2]
          exact ⟨hrefuse.1, rfl⟩
        · next hsent =>
          obtain ⟨y, hy⟩ := Option.isSome_iff_exists.mp hrefuse.2
          rw [if_neg hsent, hy]
          exact ⟨hrefuse.1, rfl⟩

end Commit

/-! ### Messages -/

theorem handler_logs {action : Action} (h : c.Ready) (hs : c.sessions k = some s)
    (hr : c.Accepts k s r) (hc' : c.handler k env r = .ok (c', action)) :
    Logs c c' (c.handlerEvents k env r) ∧
      (c.handlerEvents k env r).filterMap Event.taken = c.takes c' (.message k env r) := by
  cases r with
  | surfaceCommit sender => exact wlSurfaceCommit_logs h hs hr hc'
  | _ => exact ⟨(handler_silent c k env (by rintro sender ⟨⟩) _ hc').logs, rfl⟩

/-- Freeing frames leaves the surfaces their buffers. -/
theorem Keeps.attachedBuffer {c₁ : CaptureSession} {sender : Nat} (hkeep : Keeps c c₁) (h : c.Ready)
    (h₁ : c₁.Ready) (hs : c.sessions k = some s) (hlive : c.Live k sender .wlSurface) :
    (c₁.attachedBuffer k sender).map Prod.fst = (c.attachedBuffer k sender).map Prod.fst := by
  obtain ⟨surf, x, hsurf, hx, -⟩ := live_surface h hs hlive
  have hs₁ : c₁.sessions k = some s := by rw [hkeep.sessions, hs]
  have hx₁ := hkeep.surfaces surf x hx
  cases hbuf : x.buf with
  | none => rw [attachedBuffer_none hs hsurf hx hbuf, attachedBuffer_none hs₁ hsurf hx₁ hbuf]
  | some a =>
      obtain ⟨b, hb⟩ := buffer_of_kind (h.inv.refs surf _ hx a hbuf).1
      obtain ⟨b₁, hb₁⟩ := buffer_of_kind (h₁.inv.refs surf _ hx₁ a hbuf).1
      rw [attachedBuffer_some hs hsurf hx hbuf hb, attachedBuffer_some hs₁ hsurf hx₁ hbuf hb₁]
      rfl

theorem Keeps.takes {c₁ : CaptureSession} (hkeep : Keeps c c₁) (h : c.Ready) (h₁ : c₁.Ready)
    (hs : c.sessions k = some s) (hr : c.Accepts k s r) :
    c₁.takes c' (.message k env r) = c.takes c' (.message k env r) := by
  cases r with
  | surfaceCommit sender =>
      unfold CaptureSession.takes
      dsimp only
      rw [hkeep.attachedBuffer h h₁ hs hr]
  | _ => rfl

theorem handleMessage_logs {action : Action} (h : c.Ready) (hs : c.sessions k = some s)
    (hr : c.Accepts k s r) (hc' : c.handleMessage k env r = .ok (c', action)) :
    Logs c c' (c.afterFree env.expired fun c => c.handlerEvents k env r) ∧
      (c.afterFree env.expired fun c => c.handlerEvents k env r).filterMap Event.taken =
        c.takes c' (.message k env r) := by
  obtain ⟨c₁, hc₁, hready, hkeep⟩ := h.freeFrames env.expired
  unfold handleMessage at hc'
  unfold afterFree
  rw [hc₁] at hc' ⊢
  obtain ⟨hlogs, htaken⟩ :=
    handler_logs hready (by rw [hkeep.sessions, hs]) (hr.congr hkeep.sessions) hc'
  refine ⟨(h.freeFrames_logs _ hc₁).trans hlogs, ?_⟩
  rw [List.filterMap_append, freeEvents_taken, List.nil_append, htaken,
    hkeep.takes h hready hs hr]

/-- The state of a result. -/
theorem fst_map_ok {result : Except Fault (CaptureSession × Action)}
    (h : Prod.fst <$> result = .ok c) : ∃ action, result = .ok (c, action) := by
  cases result with
  | error fault => cases h
  | ok x =>
      cases h
      exact ⟨x.2, rfl⟩

theorem proxyMessage_logs (h : c.Ready) (hs : c.sessions k = some s) (hr : c.Conforms k r)
    (hc' : c.proxyMessage k env r = .ok c') :
    Logs c c' (c.messageEvents k env r) ∧
      (c.messageEvents k env r).filterMap Event.taken = c.takes c' (.message k env r) := by
  unfold proxyMessage at hc'
  unfold messageEvents
  cases hcreated : r.created with
  | none =>
      simp only [hs, hcreated] at hc' ⊢
      obtain ⟨action, hc'⟩ := fst_map_ok hc'
      exact handleMessage_logs h hs (hr.accepts hcreated) hc'
  | some x =>
      -- a message that creates an object is no commit
      have htakes (c : CaptureSession) : c.takes c' (.message k env r) = [] := by
        cases r with
        | surfaceCommit sender => cases hcreated
        | _ => rfl
      rw [htakes]
      cases hs' : proxyCreateObject s x.1 (some x.2) with
      | error fault =>
          simp only [hs, hcreated, hs'] at hc' ⊢
          cases hc'
          exact ⟨(Silent.refl _).logs, rfl⟩
      | ok s' =>
          simp only [hs, hcreated, hs'] at hc' ⊢
          obtain ⟨action, hc'⟩ := fst_map_ok hc'
          obtain ⟨haccepts, hfree⟩ := Conforms.created hs hr hcreated hs'
          obtain ⟨hlogs, htaken⟩ :=
            handleMessage_logs (Ready.created hs' h hs hfree) (if_pos rfl) haccepts hc'
          exact ⟨⟨hlogs.released, hlogs.frames, hlogs.order⟩, htaken.trans (htakes _)⟩

/-! ### Teardown -/

theorem destroyObject_logs {id : Nat} {expired : List Nat} (h : c.Ready)
    (hc' : c.destroyObject k expired id = .ok c') : Logs c c' (c.freeEvents expired) := by
  obtain ⟨c₁, hc₁, -, -⟩ := h.freeFrames expired
  have hlogs := h.freeFrames_logs _ hc₁
  unfold destroyObject at hc'
  split at hc'
  · cases hc'
  · next i htype =>
    split at hc'
    · simp only [hc₁, bind, Except.bind] at hc'
      split at hc'
      · cases hc'
      · next x hx =>
        split at hc'
        · cases hc'
        · cases hc'
          have hsilent := (destroyHandler_silent c₁ k id i x hx).logs
          simpa using hlogs.trans hsilent
    · cases hc'

theorem destroyEntries_logs (expired : Nat → List Nat) (ids : List Nat) (h : c.Ready)
    (hs : c.sessions k = some s) (hids : ∀ i ∈ ids, i < serverIdStart)
    (hc' : destroyEntries WlMap.client k expired ids c = .ok c') :
    Logs c c' (destroyEvents WlMap.client k expired ids c) ∧
      (destroyEvents WlMap.client k expired ids c).filterMap Event.taken = [] := by
  induction ids generalizing c s with
  | nil =>
      cases hc'
      exact ⟨(Silent.refl _).logs, rfl⟩
  | cons idx rest ih =>
      have hlt : idx < serverIdStart := hids idx List.mem_cons_self
      have hrest : ∀ i ∈ rest, i < serverIdStart := fun i hi => hids i (List.mem_cons_of_mem _ hi)
      have hentry : s.objData.client[idx]?.join = s.objData.lookup idx := (if_pos hlt).symm
      unfold destroyEntries at hc'
      unfold destroyEvents
      rw [objData_eq hs, hentry] at hc' ⊢
      cases ha : s.objData.lookup idx with
      | none =>
          rw [ha] at hc'
          exact ih h hs hrest hc'
      | some a =>
          obtain ⟨c₁, hc₁, hready₁, hs₁⟩ := destroyObject_ok h hs ha (expired idx)
          simp only [ha, hc₁, bind, Except.bind] at hc'
          obtain ⟨hlogs, htaken⟩ := ih hready₁ hs₁ hrest hc'
          simp only [hc₁]
          refine ⟨(destroyObject_logs h hc₁).trans hlogs, ?_⟩
          rw [List.filterMap_append, freeEvents_taken, htaken, List.nil_append]

theorem destroyEvents_server (expired : Nat → List Nat) (ids : List Nat)
    (hs : c.sessions k = some s) (hnone : ∀ i, s.objData.lookup i = none) :
    destroyEvents WlMap.server k expired ids c = [] := by
  induction ids with
  | nil => rfl
  | cons idx rest ih =>
      unfold destroyEvents
      rw [objData_eq hs, WlMap.server_eq_none hnone idx]
      exact ih

theorem sessionDestroy_logs (h : c.Ready) (hs : c.sessions k = some s) (expired : Nat → List Nat)
    (hc' : c.sessionDestroy k expired = .ok c') :
    Logs c c' (c.sessionEvents k expired) ∧
      (c.sessionEvents k expired).filterMap Event.taken = [] := by
  obtain ⟨c₁, s₁, hc₁, -, hs₁, hnone⟩ := destroyClient_ok h hs expired
  obtain ⟨hlogs, htaken⟩ := destroyEntries_logs expired _ h hs (h.client_range hs) hc₁
  unfold sessionDestroy at hc'
  simp only [objData_eq hs, hc₁, destroyEntries_server expired _ hs₁ hnone, bind, Except.bind] at hc'
  cases hc'
  unfold sessionEvents
  simp only [objData_eq hs, hc₁, destroyEvents_server expired _ hs₁ hnone, List.append_nil]
  exact ⟨⟨hlogs.released, hlogs.frames, hlogs.order⟩, htaken⟩

/-! ### Every run -/

theorem perform_logs (h : c.Ready) {op : Op} (hop : c.Allowed op) (hc' : c.perform op = .ok c') :
    Logs c c' (c.events op) ∧ (c.events op).filterMap Event.taken = c.takes c' op := by
  cases op with
  | connect k =>
      cases hc'
      exact ⟨Silent.logs ⟨rfl, rfl⟩, rfl⟩
  | message k env r =>
      obtain ⟨s, hs⟩ := Option.isSome_iff_exists.mp hop.1
      exact proxyMessage_logs h hs hop.2 hc'
  | disconnect k expired =>
      obtain ⟨s, hs⟩ := Option.isSome_iff_exists.mp hop
      exact sessionDestroy_logs h hs expired hc'
  | freeQueued frames => exact ⟨h.freeFrames_logs frames hc', freeEvents_taken c frames⟩

variable {width height : Nat} {log : List Event}

theorem reachable_logs (h : (loggedSystem width height).Reachable (c, log)) :
    c.Ready ∧ Logs (start width height) c log := by
  refine System.Reachable.invariant
    (fun x => x.1.Ready ∧ Logs (start width height) x.1 x.2) ?_ ?_ h
  · rintro _ rfl
    exact ⟨start_ready width height, (Silent.refl _).logs⟩
  · rintro x y ⟨hready, hlogs⟩ ⟨op, hop, hy, hlog⟩
    rcases perform_steps hready hop with herror | ⟨c₁, hc₁, hready₁⟩
    · rw [herror] at hy
      cases hy
    · rw [hc₁] at hy
      cases hy
      rw [hlog]
      exact ⟨hready₁, hlogs.trans (perform_logs hready hop hc₁).1⟩

theorem reachable_perform (h : (loggedSystem width height).Reachable (c, log)) (op : Op)
    (hop : c.Allowed op) (hc' : c.perform op = .ok c') :
    (loggedSystem width height).Reachable (c', log ++ c.events op) :=
  h.next ⟨op, hop, hc', rfl⟩

/-- Every run has its log. -/
theorem reachable_log (h : (system width height).Reachable c) :
    ∃ log, (loggedSystem width height).Reachable (c, log) := by
  induction h with
  | start hinit =>
      cases hinit
      exact ⟨[], .start rfl⟩
  | @next c c' _ hstep ih =>
      obtain ⟨log, hlog⟩ := ih
      obtain ⟨op, hop, hc'⟩ := hstep
      exact ⟨log ++ c.events op, reachable_perform hlog op hop hc'⟩

/-- What holds of the buffers and of the releases after every run. -/
structure ReleaseProtocol (c : CaptureSession) (log : List Event) : Prop where
  /-- A buffer has an id while it is stored under it in a session that is open. -/
  id_iff : ∀ a b, c.heap.objs a = some (.buffer b) →
    (b.id ≠ 0 ↔ ∃ k s, c.sessions k = some s ∧ s.objData.lookup b.id = some a)
  /-- One release for every commit whose buffer is alive when the module is done with it. -/
  released : c.released = log.filterMap Event.release
  /-- It goes to a session that is open, for the id that stands for the buffer there. -/
  release_alive : ∀ e ∈ log, ∀ h, e.handback = some h → h.Alive →
    ∃ id s, e.release = some (h.conn, id) ∧ h.sessions h.conn = some s ∧
      s.objData.lookup id = some h.buf
  release_dead : ∀ e ∈ log, ∀ h, e.handback = some h → ¬ h.Alive → e.release = none
  /-- A frame that was queued is in the queue or has been freed, once. -/
  frames : (c.queue + log.filterMap Event.freedFrame : Multiset Frame) =
    log.filterMap Event.queuedFrame
  order : ∀ p, p <+: log →
    (p.filterMap Event.freedFrame : Multiset Frame) ≤ p.filterMap Event.queuedFrame
  /-- The log tells of every buffer that the next operation takes from a surface. -/
  taken : ∀ op, c.Allowed op → c.perform op = .error .unsupported ∨
    ∃ c', c.perform op = .ok c' ∧ (c.events op).filterMap Event.taken = c.takes c' op
  /-- The compositor's own release of a known buffer does not get through. -/
  dropped : ∀ k s env sender a, c.sessions k = some s → s.objData.lookup sender = some a →
    ∃ c', c.handleMessage k env (.bufferRelease sender) = .ok (c', .drop)

theorem Ready.id_iff (h : c.Ready) (hb : c.heap.objs a = some (.buffer b)) :
    b.id ≠ 0 ↔ ∃ k s, c.sessions k = some s ∧ s.objData.lookup b.id = some a := by
  constructor
  · intro hid
    exact ⟨_, h.inv.owned a b.id .wlBuffer (named_eq hb hid)⟩
  · rintro ⟨k, s, hs, hlookup⟩
    exact ((h.inv.lookup_iff hb hs b.id).mp hlookup).2.2

theorem Ready.release_dropped (h : c.Ready) (env : Env) {sender : Nat} (hs : c.sessions k = some s)
    (ha : s.objData.lookup sender = some a) :
    ∃ c', c.handleMessage k env (.bufferRelease sender) = .ok (c', .drop) := by
  obtain ⟨c₁, hc₁, -, hkeep⟩ := h.freeFrames env.expired
  have hs₁ : c₁.sessions k = some s := by rw [hkeep.sessions, hs]
  refine ⟨c₁, ?_⟩
  unfold handleMessage
  rw [hc₁]
  change Except.ok (c₁.wlBufferReleaseEvent k sender) = _
  rw [wlBufferReleaseEvent, objData_eq hs₁, ha]

theorem release_protocol_of_reachable (h : (loggedSystem width height).Reachable (c, log)) :
    c.ReleaseProtocol log := by
  obtain ⟨hready, hlogs⟩ := reachable_logs h
  refine
    { id_iff := fun a b hb => hready.id_iff hb
      released := hlogs.released
      release_alive := ?_
      release_dead := ?_
      frames := hlogs.frames.trans (zero_add _)
      order := fun p hp => (hlogs.order p hp).trans (zero_add _).le
      taken := ?_
      dropped := fun k s env sender a hs ha => hready.release_dropped env hs ha }
  · intro e _ h he halive
    obtain ⟨x, hx⟩ := Option.isSome_iff_exists.mp (h.release_isSome_iff.mpr halive)
    obtain ⟨hconn, s, hs, hlookup⟩ := Handback.release_eq_some hx
    refine ⟨x.2, s, ?_, hs, hlookup⟩
    rw [Event.release, he, Option.bind_some, hx, ← hconn]
  · intro e _ h he hdead
    rw [Event.release, he, Option.bind_some, ← Option.not_isSome_iff_eq_none, h.release_isSome_iff]
    exact hdead
  · intro op hop
    rcases perform_steps hready hop with herror | ⟨c', hc', -⟩
    · exact .inl herror
    · exact .inr ⟨c', hc', (perform_logs hready hop hc').2⟩

/-- A commit, and the free of its frame while the buffer is alive. -/
theorem release_protocol_of_one_commit : ∃ c log, (loggedSystem 8 8).Reachable (c, log) ∧
    c.ReleaseProtocol log ∧ log.filterMap Event.taken = [(1, 0)] ∧ c.released = [(0, 3)] := by
  have h₀ : (loggedSystem 8 8).Reachable (start 8 8, []) := .start rfl
  have h₁ := reachable_perform h₀ (.connect 0) rfl rfl
  have h₂ := reachable_perform h₁ (.message 0 quiet (.createPool 2 4096))
    ⟨rfl, by decide, by decide, rfl⟩ rfl
  have h₃ := reachable_perform h₂ (.message 0 quiet (.createBuffer 2 3 0 8 8 32 0))
    ⟨rfl, ⟨rfl, rfl⟩, by decide, by decide, rfl⟩ rfl
  have h₄ := reachable_perform h₃ (.message 0 quiet (.createSurface 4))
    ⟨rfl, by decide, by decide, rfl⟩ rfl
  have h₅ := reachable_perform h₄ (.message 0 quiet (.surfaceAttach 4 3 0 0))
    ⟨rfl, ⟨rfl, rfl⟩, .inr rfl⟩ rfl
  have h₆ := reachable_perform h₅ (.message 0 quiet (.surfaceCommit 4)) ⟨rfl, rfl, rfl⟩ rfl
  have h₇ := reachable_perform h₆ (.freeQueued [0]) trivial rfl
  exact ⟨_, _, h₇, release_protocol_of_reachable h₇, rfl, rfl⟩

end CaptureSession

end Stratus.Capture
