import Stratus.Capture.LifeCycle

/-! Each function of the Capture module keeps the invariant and meets no fault.  A
reference is first moved to the roots and then dropped, whatever the order of the
source's assignments; assignments to different objects commute. -/
namespace Stratus.Capture

open Stratus.Lib Proxy

namespace CaptureSession

variable {c : CaptureSession} {dead roots : List Addr} {a x : Addr} {o o' : Obj}

theorem readSurface_eq {s : Surface} (h : c.heap.objs a = some (.surface s)) :
    c.readSurface a = .ok s := by
  simp [readSurface, h]

theorem readBuffer_eq {b : Buffer} (h : c.heap.objs a = some (.buffer b)) :
    c.readBuffer a = .ok b := by
  simp [readBuffer, h]

theorem readPool_eq {p : Pool} (h : c.heap.objs a = some (.pool p)) : c.readPool a = .ok p := by
  simp [readPool, h]

theorem readParams_eq {p : Params} (h : c.heap.objs a = some (.params p)) :
    c.readParams a = .ok p := by
  simp [readParams, h]

/-- The object of a kind. -/
theorem exists_of_kind {i : Interface} (h : c.kind a = some i) :
    ∃ o, c.heap.objs a = some o ∧ o.interface = i := by
  unfold kind at h
  exact Option.map_eq_some_iff.mp h

theorem buffer_of_kind (h : c.kind a = some .wlBuffer) :
    ∃ b, c.heap.objs a = some (.buffer b) := by
  obtain ⟨o, ho, hi⟩ := exists_of_kind h
  cases o with
  | buffer b => exact ⟨b, ho⟩
  | _ => cases hi

theorem pool_of_kind (h : c.kind a = some .wlShmPool) : ∃ p, c.heap.objs a = some (.pool p) := by
  obtain ⟨o, ho, hi⟩ := exists_of_kind h
  cases o with
  | pool p => exact ⟨p, ho⟩
  | _ => cases hi

theorem surface_ne_buffer {s : Surface} {b : Buffer} (hs : c.heap.objs x = some (.surface s))
    (hb : c.heap.objs a = some (.buffer b)) : x ≠ a := by
  rintro rfl
  rw [hs] at hb
  cases hb

/-! ### Counting up and down -/

/-- The same object with another counter. -/
structure Recount (o o' : Obj) : Prop where
  id : o'.id = o.id
  interface : o'.interface = o.interface
  refs : o'.refs = o.refs
  ok : ∀ (c : CaptureSession) (a : Addr), c.RefsOk a o → c.RefsOk a o'

theorem Recount.buffer (b : Buffer) (n : Nat) :
    Recount (.buffer b) (.buffer { b with dependents := n }) := ⟨rfl, rfl, rfl, fun _ _ h => h⟩

theorem Recount.pool (p : Pool) (n : Nat) :
    Recount (.pool p) (.pool { p with dependents := n }) := ⟨rfl, rfl, rfl, fun _ _ h => h⟩

theorem Inv.dependents_pos (h : Inv dead (a :: roots) c) (ho : c.heap.objs a = some o) :
    0 < o.dependents := by
  rw [h.counted a o ho, holds, List.count_cons_self]
  omega

theorem Inv.dec (h : Inv dead (a :: roots) c) (ho : c.heap.objs a = some o) (hsame : Recount o o')
    (hdec : o.dependents = o'.dependents + 1) : Inv (a :: dead) roots (c.write a o') := by
  refine h.write ho hsame.id hsame.interface (hsame.ok c a (h.refs a o ho)) ?_ ?_ ?_ ?_
  · intro t
    rw [hsame.refs, hdec, List.count_append, List.count_append, List.count_cons]
    by_cases ht : t = a
    · simp only [ht, if_true, beq_self_eq_true]
      omega
    · simp [ht, Ne.symm ht]
  · exact fun t ht => h.roots_live t (List.mem_cons_of_mem _ ht)
  · exact fun t ht _ => List.mem_cons_of_mem _ ht
  · exact .inl List.mem_cons_self

theorem Inv.inc (h : Inv dead roots c) (ho : c.heap.objs a = some o) (hsame : Recount o o')
    (hinc : o'.dependents = o.dependents + 1) : Inv dead (a :: roots) (c.write a o') := by
  refine h.write ho hsame.id hsame.interface (hsame.ok c a (h.refs a o ho)) ?_ ?_ ?_ ?_
  · intro t
    rw [hsame.refs, hinc, List.count_append, List.count_append, List.count_cons]
    by_cases ht : t = a
    · simp only [ht, if_true, beq_self_eq_true]
      omega
    · simp [ht, Ne.symm ht]
  · intro t ht
    rcases List.mem_cons.mp ht with rfl | ht
    · rw [kind_eq ho]
      rfl
    · exact h.roots_live t ht
  · exact fun t ht _ => ht
  · exact .inr fun hexpired => by have := hexpired.2; omega

theorem Keeps.write (ho : c.heap.objs a = some o) (hsame : Recount o o')
    (hsurface : o.interface ≠ .wlSurface) : Keeps c (c.write a o') where
  sessions := rfl
  owner := rfl
  named t := named_write ho hsame.id hsame.interface t
  kind t _ := kind_write ho hsame.interface t
  surfaces t s ht := by
    refine (Heap.objs_set_ne ?_ c.heap (some o')).trans ht
    rintro rfl
    rw [ho] at ht
    cases ht
    exact hsurface rfl

theorem SameNames.free (ho : c.heap.objs a = some o) (hid : o.id = 0) :
    SameNames c (c.free a o) where
  sessions := rfl
  owner := rfl
  named t := named_free ho hid t
  kind t ht := by
    refine kind_free ho ?_
    rintro rfl
    rw [CaptureSession.kind, objs_free ho, if_pos rfl] at ht
    cases ht

theorem Keeps.free (ho : c.heap.objs a = some o) (hid : o.id = 0)
    (hsurface : o.interface ≠ .wlSurface) : Keeps c (c.free a o) where
  toSameNames := .free ho hid
  surfaces t s ht := by
    refine (Heap.objs_set_ne ?_ c.heap none).trans ht
    rintro rfl
    rw [ho] at ht
    cases ht
    exact hsurface rfl

/-! ### Freeing -/

theorem wlShmPoolFree_eq {p : Pool} (h : c.heap.objs a = some (.pool p)) (hid : p.id = 0)
    (hdependents : p.dependents = 0) : c.wlShmPoolFree a = .ok (c.free a (.pool p)) := by
  simp [wlShmPoolFree, readPool_eq h, hid, hdependents, bind, Except.bind, pure, Except.pure]

theorem write_comm (hne : a ≠ x) : (c.write a o).write x o' = (c.write x o').write a o := by
  unfold write
  dsimp only
  rw [Heap.set_comm _ _ _ hne]

theorem free_write_comm {o₁ : Obj} (hne : a ≠ x) :
    (c.free a o).write x o₁ = (c.write x o₁).free a o := by
  unfold write free
  dsimp only
  rw [Heap.set_comm _ _ _ hne]

theorem free_free_comm (hne : a ≠ x) :
    ((c.write x o').free x o').free a o =
      { ((c.free a o).write x o').free x o' with
        freed := c.freed ++ [(x, o')] ++ [(a, o)] } := by
  unfold write free
  dsimp only
  rw [Heap.set_set, Heap.set_set, Heap.set_comm _ _ _ hne]

/-- `wl_shm_buffer_free`, with the counter of the pool in sight. -/
theorem wlShmBufferFree_eq {buf : ShmBuffer} {p : Pool} {n : Nat}
    (hp : c.heap.objs buf.pool = some (.pool p)) (hn : p.dependents = n + 1) :
    c.wlShmBufferFree buf = .ok
      (if p.id = 0 ∧ n = 0 then
        (c.write buf.pool (.pool { p with dependents := n })).free buf.pool
          (.pool { p with dependents := n })
      else c.write buf.pool (.pool { p with dependents := n })) := by
  unfold wlShmBufferFree
  simp only [readPool_eq hp, hn, decrement, bind, Except.bind]
  split
  · next hexpired =>
    refine wlShmPoolFree_eq ?_ hexpired.1 hexpired.2
    rw [objs_write hp, if_pos rfl]
  · rfl

/-- `wl_buffer_free` on an expired buffer. -/
theorem wlBufferFree_eq {b : Buffer} (hb : c.heap.objs a = some (.buffer b)) (hid : b.id = 0)
    (hdependents : b.dependents = 0) :
    c.wlBufferFree a = (match b.shmBuf with
      | some buf => c.wlShmBufferFree buf
      | none => .ok c).map fun c : CaptureSession => c.free a (.buffer b) := by
  unfold wlBufferFree
  simp only [readBuffer_eq hb, hid, hdependents, bind, Except.bind, and_self, if_true]
  cases b.shmBuf with
  | none => rfl
  | some buf => cases c.wlShmBufferFree buf <;> rfl

theorem Inv.wlBufferFree {b : Buffer} (h : Inv (a :: dead) roots c)
    (hb : c.heap.objs a = some (.buffer b)) (hid : b.id = 0) (hdependents : b.dependents = 0) :
    ∃ c', c.wlBufferFree a = .ok c' ∧ Inv dead roots c' ∧ Keeps c c' ∧ c'.queue = c.queue := by
  have hfree := h.free hb ⟨hid, hdependents⟩ ⟨hid, hdependents⟩
  have hkeep : Keeps c (c.free a (.buffer b)) := .free hb hid (by rintro ⟨⟩)
  rw [wlBufferFree_eq hb hid hdependents]
  cases hshm : b.shmBuf with
  | none =>
      simp only [Obj.refs, hshm, Option.map_none, Option.toList_none, List.nil_append] at hfree
      exact ⟨_, rfl, hfree, hkeep, rfl⟩
  | some buf =>
      simp only [Obj.refs, hshm, Option.map_some, Option.toList_some, List.singleton_append] at hfree
      obtain ⟨p, hp⟩ := pool_of_kind ((h.refs a _ hb).1 buf hshm)
      have hne : buf.pool ≠ a := by
        intro heq
        rw [heq, hb] at hp
        cases hp
      -- in the order of the argument: the buffer first, then its reference to the pool
      have hp₁ : (c.free a (.buffer b)).heap.objs buf.pool = some (.pool p) := by
        rw [objs_free hb, if_neg hne, hp]
      obtain ⟨n, hn⟩ : ∃ n, p.dependents = n + 1 := Nat.exists_eq_succ_of_ne_zero
        (Nat.ne_of_gt (hfree.dependents_pos hp₁))
      have hdec := hfree.dec hp₁ (.pool p n) hn
      have hp₂ : ((c.free a (.buffer b)).write buf.pool (.pool { p with dependents := n })).heap.objs
          buf.pool = some (.pool { p with dependents := n }) := by
        rw [objs_write hp₁, if_pos rfl]
      have hkeep₂ := hkeep.trans (.write hp₁ (.pool p n) (by rintro ⟨⟩))
      simp only [wlShmBufferFree_eq hp hn, Except.map]
      split
      · next hexpired =>
        have hready : (Obj.pool { p with dependents := n }).Expired := hexpired
        have hdone := hdec.free hp₂ hready hready
        have hkeep₃ := hkeep₂.trans (.free hp₂ hexpired.1 (by rintro ⟨⟩))
        refine ⟨_, rfl, ?_, ?_, rfl⟩
        · rw [free_free_comm hne.symm]
          refine hdone.refreed ?_ ?_
          · rw [List.append_assoc]
            change (List.map Prod.fst (c.freed ++ _)).Perm (List.map Prod.fst (c.freed ++ _ ++ _))
            rw [List.append_assoc]
            exact (List.perm_append_comm.append_left _).map _
          · intro y hy
            refine hdone.freed_ready y ?_
            change y ∈ c.freed ++ [(a, .buffer b)] ++ [(buf.pool, .pool { p with dependents := n })]
            simp only [List.mem_append, List.mem_singleton] at hy ⊢
            tauto
        · rw [free_free_comm hne.symm]
          exact { hkeep₃ with }
      · next halive =>
        refine ⟨_, rfl, ?_, ?_, rfl⟩
        · rw [← free_write_comm hne.symm]
          exact hdec.revive hp₂ halive
        · rw [← free_write_comm hne.symm]
          exact hkeep₂

/-- The pool of a buffer counts it. -/
theorem Inv.pool_pos (h : Inv dead roots c) {b : Buffer} {buf : ShmBuffer}
    (hb : c.heap.objs a = some (.buffer b)) (hbuf : b.shmBuf = some buf) :
    ∃ p n, c.heap.objs buf.pool = some (.pool p) ∧ p.dependents = n + 1 := by
  obtain ⟨p, hp⟩ := pool_of_kind ((h.refs a _ hb).1 buf hbuf)
  have hcount : (Obj.buffer b).refs.count buf.pool = 1 := by simp [Obj.refs, hbuf]
  have hle : (Obj.buffer b).refs.count buf.pool ≤ c.heap.holds Obj.refs buf.pool :=
    Heap.count_le_holds hb buf.pool
  have hdependents : p.dependents = c.holds roots buf.pool := h.counted _ _ hp
  unfold holds at hdependents
  obtain ⟨n, hn⟩ : ∃ n, p.dependents = n + 1 := Nat.exists_eq_succ_of_ne_zero (by omega)
  exact ⟨p, n, hp, hn⟩

/-- `wl_buffer_free` does not look at other objects than the buffer and its pool. -/
theorem wlBufferFree_write {b : Buffer} (hb : c.heap.objs a = some (.buffer b)) (hid : b.id = 0)
    (hdependents : b.dependents = 0) (hne : a ≠ x)
    (hpool : ∀ buf, b.shmBuf = some buf → buf.pool ≠ x ∧ ∃ p n,
      c.heap.objs buf.pool = some (.pool p) ∧ p.dependents = n + 1) :
    (c.write x o).wlBufferFree a =
      (c.wlBufferFree a).map fun c : CaptureSession => c.write x o := by
  have hb' : (c.write x o).heap.objs a = some (.buffer b) := (objs_write_ne hne).trans hb
  rw [wlBufferFree_eq hb hid hdependents, wlBufferFree_eq hb' hid hdependents]
  cases hshm : b.shmBuf with
  | none =>
      simp only [Except.map]
      rw [free_write_comm hne]
  | some buf =>
      obtain ⟨hpx, p, n, hp, hn⟩ := hpool buf hshm
      have hp' : (c.write x o).heap.objs buf.pool = some (.pool p) := (objs_write_ne hpx).trans hp
      simp only [wlShmBufferFree_eq hp hn, wlShmBufferFree_eq hp' hn, Except.map]
      split
      · rw [free_write_comm hne, free_write_comm hpx, write_comm hpx]
      · rw [free_write_comm hne, write_comm hpx]

/-- A counted reference to a buffer is given up. -/
theorem Inv.dropBuffer {b : Buffer} (h : Inv dead (a :: roots) c)
    (hb : c.heap.objs a = some (.buffer b)) {n : Nat} (hn : b.dependents = n + 1) :
    ∃ c', (if b.id = 0 ∧ n = 0 then
        (c.write a (.buffer { b with dependents := n })).wlBufferFree a
      else .ok (c.write a (.buffer { b with dependents := n }))) = .ok c' ∧
      Inv dead roots c' ∧ Keeps c c' ∧ c'.queue = c.queue := by
  have hdec := h.dec hb (.buffer b n) hn
  have hkeep : Keeps c (c.write a (.buffer { b with dependents := n })) :=
    .write hb (.buffer b n) (by rintro ⟨⟩)
  have hb' : (c.write a (.buffer { b with dependents := n })).heap.objs a =
      some (.buffer { b with dependents := n }) := by
    rw [objs_write hb, if_pos rfl]
  split
  · next hexpired =>
    obtain ⟨c', hc', hinv, hkeep', hqueue⟩ := hdec.wlBufferFree hb' hexpired.1 hexpired.2
    exact ⟨c', hc', hinv, hkeep.trans hkeep', hqueue⟩
  · next halive => exact ⟨_, rfl, hdec.revive hb' halive, hkeep, rfl⟩

theorem Inv.wlSurfaceUnattach {s : Surface} (h : Inv dead roots c)
    (hs : c.heap.objs x = some (.surface s)) :
    ∃ c', c.wlSurfaceUnattach x = .ok c' ∧ Inv dead roots c' ∧ SameNames c c' ∧
      c'.heap.objs x = some (.surface { s with buf := none }) ∧ c'.queue = c.queue := by
  unfold CaptureSession.wlSurfaceUnattach
  simp only [readSurface_eq hs, bind, Except.bind]
  cases hbuf : s.buf with
  | none =>
      have hsame : { s with buf := none } = s := by
        cases s
        cases hbuf
        rfl
      exact ⟨c, rfl, h, (Keeps.refl c).toSameNames, hsame ▸ hs, rfl⟩
  | some a =>
      obtain ⟨hkind, howner⟩ := h.refs x _ hs a hbuf
      obtain ⟨b, hb⟩ := buffer_of_kind hkind
      have hne : a ≠ x := (surface_ne_buffer hs hb).symm
      -- the surface lets go of the buffer first
      have hdetach : Inv dead (a :: roots) (c.write x (.surface { s with buf := none })) := by
        refine h.write hs rfl rfl (by rintro t ⟨⟩) ?_ ?_ (fun t ht _ => ht) ?_
        · intro t
          simp only [Obj.refs, hbuf, Option.toList_none, Option.toList_some, List.nil_append,
            List.singleton_append, Obj.dependents]
        · intro t ht
          rcases List.mem_cons.mp ht with rfl | ht
          · simp [hkind]
          · exact h.roots_live t ht
        · by_cases hx : x ∈ dead
          · exact .inl hx
          · exact .inr fun hexpired => h.alive x _ hs hx hexpired
      have hb' : (c.write x (.surface { s with buf := none })).heap.objs a = some (.buffer b) :=
        (objs_write_ne hne).trans hb
      obtain ⟨n, hn⟩ : ∃ n, b.dependents = n + 1 := Nat.exists_eq_succ_of_ne_zero
        (Nat.ne_of_gt (hdetach.dependents_pos hb'))
      obtain ⟨c', hc', hinv, hkeep, hqueue⟩ := hdetach.dropBuffer hb' hn
      have hkept := hkeep.surfaces x _ ((objs_write hs x).trans (if_pos rfl))
      have hnames : SameNames c (c.write x (.surface { s with buf := none })) :=
        ⟨rfl, rfl, named_write hs rfl rfl, fun t _ => kind_write hs (by rfl) t⟩
      refine ⟨c', ?_, hinv, hnames.trans hkeep.toSameNames, hkept, hqueue⟩
      simp only [readBuffer_eq hb, hn, decrement, pure, Except.pure]
      rw [write_comm hne.symm] at hc'
      split at hc'
      · next hexpired =>
        have hb₁ : (c.write a (.buffer { b with dependents := n })).heap.objs a =
            some (.buffer { b with dependents := n }) := (objs_write hb a).trans (if_pos rfl)
        rw [wlBufferFree_write hb₁ hexpired.1 hexpired.2 hne] at hc'
        · cases hfree : (c.write a (.buffer { b with dependents := n })).wlBufferFree a with
          | error f =>
              rw [hfree] at hc'
              cases hc'
          | ok c₁ =>
              rw [hfree] at hc'
              rw [if_pos hexpired]
              exact hc'
        · intro buf hbuf'
          obtain ⟨p, m, hp, hm⟩ := h.pool_pos hb hbuf'
          have hpx : buf.pool ≠ x := by
            intro heq
            rw [heq, hs] at hp
            cases hp
          have hpa : buf.pool ≠ a := by
            intro heq
            rw [heq, hb] at hp
            cases hp
          exact ⟨hpx, p, m, (objs_write_ne hpa).trans hp, hm⟩
      · next halive =>
        rw [if_neg halive]
        exact hc'

/-! ### The queue -/

theorem Inv.wlBufferRelease {b : Buffer} (h : Inv (a :: dead) roots c)
    (hb : c.heap.objs a = some (.buffer b)) {conn : Nat} (hconn : conn = c.owner a) :
    ∃ c', c.wlBufferRelease a conn = .ok c' ∧ Inv dead roots c' ∧ Keeps c c' ∧
      c'.queue = c.queue := by
  unfold CaptureSession.wlBufferRelease
  simp only [readBuffer_eq hb, bind, Except.bind]
  by_cases hid : b.id = 0
  · simp only [hid, ↓reduceIte, true_and, pure, Except.pure]
    split
    · next hdependents => exact h.wlBufferFree hb hid hdependents
    · next hdependents =>
      exact ⟨c, rfl, h.revive hb (fun hexpired => hdependents hexpired.2), .refl c, rfl⟩
  · -- the buffer is still in the map of its session, so the connection is there
    obtain ⟨s, hs, -⟩ := h.owned a b.id .wlBuffer (named_eq hb hid)
    have hinv := h.revive hb (fun hexpired => hid hexpired.1)
    simp only [if_neg hid, hconn, hs, Option.isSome_some, if_true, pure, Except.pure,
      if_neg (fun hand : b.id = 0 ∧ b.dependents = 0 => hid hand.1)]
    exact ⟨_, rfl, { hinv with }, { Keeps.refl c with }, rfl⟩

theorem Inv.freeFrame {f : Frame} (h : Inv dead (f.buf :: roots) c)
    (hkind : c.kind f.buf = some .wlBuffer) (hconn : f.conn = c.owner f.buf) :
    ∃ c', c.freeFrame f = .ok c' ∧ Inv dead roots c' ∧ Keeps c c' ∧ c'.queue = c.queue := by
  obtain ⟨b, hb⟩ := buffer_of_kind hkind
  obtain ⟨n, hn⟩ : ∃ n, b.dependents = n + 1 := Nat.exists_eq_succ_of_ne_zero
    (Nat.ne_of_gt (h.dependents_pos hb))
  have hdec := h.dec hb (.buffer b n) hn
  have hb' : (c.write f.buf (.buffer { b with dependents := n })).heap.objs f.buf =
      some (.buffer { b with dependents := n }) := (objs_write hb f.buf).trans (if_pos rfl)
  obtain ⟨c', hc', hinv, hkeep, hqueue⟩ := hdec.wlBufferRelease hb' hconn
  refine ⟨c', ?_, hinv, Keeps.trans (.write hb (.buffer b n) (by rintro ⟨⟩)) hkeep, hqueue⟩
  unfold CaptureSession.freeFrame
  simp only [readBuffer_eq hb, hn, decrement, bind, Except.bind]
  exact hc'

/-- The invariant between two handlers. -/
structure Ready (c : CaptureSession) : Prop where
  inv : Inv [] (c.queue.map Frame.buf) c
  queued : c.Queued

/-- The queue may only have lost frames. -/
theorem Queued.ready {c' : CaptureSession} (h : c.Queued) (hinv : Inv [] (c'.queue.map Frame.buf) c')
    (hnames : SameNames c c') (hqueue : ∀ f ∈ c'.queue, f ∈ c.queue) : c'.Ready := by
  refine ⟨hinv, fun f hf => ?_⟩
  rw [hnames.owner, hnames.kind f.buf (hinv.roots_live _ (List.mem_map_of_mem hf))]
  exact h f (hqueue f hf)

/-- One frame is freed and leaves the queue. -/
theorem Ready.freeOne (h : c.Ready) {i : Nat} {f : Frame} (hf : c.queue[i]? = some f) :
    ∃ c', c.freeFrame f = .ok c' ∧ Ready { c' with queue := c'.queue.eraseIdx i } ∧
      Keeps c { c' with queue := c'.queue.eraseIdx i } ∧ c'.queue = c.queue := by
  obtain ⟨hlt, hget⟩ := List.getElem?_eq_some_iff.mp hf
  have hperm : (c.queue.map Frame.buf).Perm (f.buf :: (c.queue.eraseIdx i).map Frame.buf) := by
    rw [← List.map_cons, ← hget]
    exact (List.getElem_cons_eraseIdx_perm hlt).symm.map _
  obtain ⟨hkind, hconn⟩ := h.queued f (List.mem_of_getElem? hf)
  obtain ⟨c', hc', hinv, hkeep, hqueue⟩ := (h.inv.perm hperm).freeFrame hkind hconn
  have hinv' : Inv [] ((c.queue.eraseIdx i).map Frame.buf)
      { c' with queue := c'.queue.eraseIdx i } := { hinv with }
  have hkeep' : Keeps c { c' with queue := c'.queue.eraseIdx i } := { hkeep with }
  refine ⟨c', hc', h.queued.ready ?_ hkeep'.toSameNames ?_, hkeep', hqueue⟩
  · simpa only [hqueue] using hinv'
  · intro g hg
    rw [← hqueue]
    exact List.mem_of_mem_eraseIdx hg

theorem Ready.freeFrames (h : c.Ready) (places : List Nat) :
    ∃ c', c.freeFrames places = .ok c' ∧ c'.Ready ∧ Keeps c c' := by
  induction places generalizing c with
  | nil => exact ⟨c, rfl, h, .refl c⟩
  | cons i rest ih =>
      unfold CaptureSession.freeFrames
      cases hf : c.queue[i]? with
      | none => exact ih h
      | some f =>
          obtain ⟨c₁, hc₁, hready, hkeep, -⟩ := h.freeOne hf
          obtain ⟨c', hc', hready', hkeep'⟩ := ih hready
          refine ⟨c', ?_, hready', hkeep.trans hkeep'⟩
          simp only [hc₁, bind, Except.bind]
          exact hc'

end CaptureSession

end Stratus.Capture
