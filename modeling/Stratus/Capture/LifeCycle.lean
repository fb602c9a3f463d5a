import Stratus.Capture.Messages

/-! The invariant behind the object life cycle.  `roots` are the references that are
not in the heap: those of the queued frames, and inside a handler those it has just
taken or is about to drop.  `dead` are the objects that the running handler has made
ready to be freed. -/
namespace Stratus.Capture

open Stratus.Lib Proxy

namespace Obj

/-- Destroyed and without dependents: to be freed now. -/
def Expired (o : Obj) : Prop := o.id = 0 ∧ o.dependents = 0

/-- How an object may look when it is freed.  A params object keeps its id. -/
def Freeable : Obj → Prop
  | .params _ => True
  | o => o.Expired

end Obj

namespace CaptureSession

def holds (c : CaptureSession) (roots : List Addr) (a : Addr) : Nat :=
  c.heap.holds Obj.refs a + roots.count a

def kind (c : CaptureSession) (a : Addr) : Option Interface := (c.heap.objs a).map Obj.interface

/-- The id and interface of an object that has not been destroyed. -/
def named (c : CaptureSession) (a : Addr) : Option (Nat × Interface) :=
  (c.heap.objs a).bind fun o => if o.id = 0 then none else some (o.id, o.interface)

/-- The references of the object at `a` are of the right kind and within its session. -/
def RefsOk (c : CaptureSession) (a : Addr) : Obj → Prop
  | .surface s => ∀ t, s.buf = some t → c.kind t = some .wlBuffer ∧ c.owner t = c.owner a
  | .buffer b => (∀ buf, b.shmBuf = some buf → c.kind buf.pool = some .wlShmPool) ∧
      b.shmBuf.isNone ≠ b.dmaBuf.isNone
  | _ => True

structure Inv (dead roots : List Addr) (c : CaptureSession) : Prop where
  counted : ∀ a o, c.heap.objs a = some o → o.dependents = c.holds roots a
  refs : ∀ a o, c.heap.objs a = some o → c.RefsOk a o
  roots_live : ∀ a ∈ roots, (c.kind a).isSome
  alive : ∀ a o, c.heap.objs a = some o → a ∉ dead → ¬ o.Expired
  freed_gone : ∀ x ∈ c.freed, x.1 < c.heap.next ∧ c.heap.objs x.1 = none
  freed_once : (c.freed.map Prod.fst).Nodup
  freed_ready : ∀ x ∈ c.freed, x.2.Freeable
  accounted : ∀ a, a < c.heap.next → c.heap.objs a = none → a ∈ c.freed.map Prod.fst
  stored : ∀ k s id a, c.sessions k = some s → s.objData.lookup id = some a →
    id < serverIdStart ∧ c.owner a = k ∧ ∃ i, c.named a = some (id, i) ∧ s.objTypes.lookup id = some i
  owned : ∀ a id i, c.named a = some (id, i) →
    ∃ s, c.sessions (c.owner a) = some s ∧ s.objData.lookup id = some a
  sized : ∀ k s, c.sessions k = some s → s.objData.client.length ≤ maxObjects + 1

/-- The part of the invariant that does not look at the sessions. -/
structure HeapInv (dead roots : List Addr) (c : CaptureSession) : Prop where
  counted : ∀ a o, c.heap.objs a = some o → o.dependents = c.holds roots a
  refs : ∀ a o, c.heap.objs a = some o → c.RefsOk a o
  roots_live : ∀ a ∈ roots, (c.kind a).isSome
  alive : ∀ a o, c.heap.objs a = some o → a ∉ dead → ¬ o.Expired
  freed_gone : ∀ x ∈ c.freed, x.1 < c.heap.next ∧ c.heap.objs x.1 = none
  freed_once : (c.freed.map Prod.fst).Nodup
  freed_ready : ∀ x ∈ c.freed, x.2.Freeable
  accounted : ∀ a, a < c.heap.next → c.heap.objs a = none → a ∈ c.freed.map Prod.fst

theorem Inv.heap {dead roots : List Addr} {c : CaptureSession} (h : Inv dead roots c) :
    HeapInv dead roots c := { h with }

/-- The frames of the queue point to buffers, each with its session. -/
def Queued (c : CaptureSession) : Prop :=
  ∀ f ∈ c.queue, c.kind f.buf = some .wlBuffer ∧ f.conn = c.owner f.buf

/-- The sessions and the identities of the objects are left alone. -/
structure SameNames (c c' : CaptureSession) : Prop where
  sessions : c'.sessions = c.sessions
  owner : c'.owner = c.owner
  named : ∀ a, c'.named a = c.named a
  kind : ∀ a, (c'.kind a).isSome → c'.kind a = c.kind a

/-- What dropping references leaves alone. -/
structure Keeps (c c' : CaptureSession) : Prop extends SameNames c c' where
  surfaces : ∀ a s, c.heap.objs a = some (.surface s) → c'.heap.objs a = some (.surface s)

section Frame

variable {c c' c'' : CaptureSession}

theorem SameNames.trans (h : SameNames c c') (h' : SameNames c' c'') : SameNames c c'' where
  sessions := h'.sessions.trans h.sessions
  owner := h'.owner.trans h.owner
  named a := (h'.named a).trans (h.named a)
  kind a ha := (h'.kind a ha).trans (h.kind a (h'.kind a ha ▸ ha))

theorem Keeps.refl (c : CaptureSession) : Keeps c c where
  sessions := rfl
  owner := rfl
  named _ := rfl
  kind _ _ := rfl
  surfaces _ _ h := h

theorem Keeps.trans (h : Keeps c c') (h' : Keeps c' c'') : Keeps c c'' where
  toSameNames := h.toSameNames.trans h'.toSameNames
  surfaces a s hs := h'.surfaces a s (h.surfaces a s hs)

end Frame

variable {c : CaptureSession} {dead dead' roots roots' : List Addr} {a : Addr} {o o' : Obj}

/-! ### One object is changed -/

theorem kind_eq (ho : c.heap.objs a = some o) : c.kind a = some o.interface := by
  rw [kind, ho]
  rfl

theorem objs_write (ho : c.heap.objs a = some o) (t : Addr) :
    (c.write a o').heap.objs t = if t = a then some o' else c.heap.objs t :=
  Heap.objs_set ho (some o') t

theorem objs_write_ne {t : Addr} (hne : t ≠ a) : (c.write a o).heap.objs t = c.heap.objs t :=
  Heap.objs_set_ne hne c.heap (some o)

theorem kind_write (ho : c.heap.objs a = some o) (hinterface : o'.interface = o.interface)
    (t : Addr) : (c.write a o').kind t = c.kind t := by
  unfold kind write
  rw [Heap.objs_set ho]
  split
  · next ht => rw [ht, ho, Option.map_some, Option.map_some, hinterface]
  · rfl

theorem named_write (ho : c.heap.objs a = some o) (hid : o'.id = o.id)
    (hinterface : o'.interface = o.interface) (t : Addr) : (c.write a o').named t = c.named t := by
  unfold named write
  rw [Heap.objs_set ho]
  split
  · next ht => rw [ht, ho, Option.bind_some, Option.bind_some, hid, hinterface]
  · rfl

theorem holds_write (ho : c.heap.objs a = some o) (t : Addr) :
    (c.write a o').holds roots t + o.refs.count t = c.holds roots t + o'.refs.count t := by
  have hset : (c.heap.set a (some o')).holds Obj.refs t + o.refs.count t =
    c.heap.holds Obj.refs t + o'.refs.count t := Heap.holds_set ho (some o') t
  unfold holds write
  dsimp only
  omega

theorem RefsOk.congr {c' : CaptureSession} (h : c.RefsOk a o)
    (hkind : ∀ t ∈ o.refs, c'.kind t = c.kind t) (howner : c'.owner = c.owner) :
    c'.RefsOk a o := by
  cases o with
  | surface s =>
      intro t ht
      rw [hkind t (by simp [Obj.refs, ht]), howner]
      exact h t ht
  | buffer b =>
      refine ⟨?_, h.2⟩
      intro buf hbuf
      rw [hkind buf.pool (by simp [Obj.refs, hbuf])]
      exact h.1 buf hbuf
  | pool p => trivial
  | params p => trivial

theorem RefsOk.live (h : c.RefsOk a o) {t : Addr} (ht : t ∈ o.refs) : (c.kind t).isSome := by
  cases o with
  | surface s =>
      have hbuf : s.buf = some t := by simpa [Obj.refs] using ht
      simp [(h t hbuf).1]
  | buffer b =>
      obtain ⟨buf, hbuf, rfl⟩ : ∃ buf, b.shmBuf = some buf ∧ buf.pool = t := by
        simpa [Obj.refs] using ht
      simp [h.1 buf hbuf]
  | pool p => cases ht
  | params p => cases ht

/-- An object is overwritten by one of the same kind.  Its counter and references, and the
roots, change together. -/
theorem HeapInv.write (h : HeapInv dead roots c) (ho : c.heap.objs a = some o)
    (hinterface : o'.interface = o.interface) (hrefs : c.RefsOk a o')
    (hcount : ∀ t, (o'.refs ++ roots').count t + (if t = a then o.dependents else 0) =
      (o.refs ++ roots).count t + if t = a then o'.dependents else 0)
    (hroots : ∀ t ∈ roots', (c.kind t).isSome) (hdead : ∀ t ∈ dead, t ≠ a → t ∈ dead')
    (halive : a ∈ dead' ∨ ¬ o'.Expired) : HeapInv dead' roots' (c.write a o') := by
  have hobjs (t : Addr) : (c.write a o').heap.objs t = if t = a then some o' else c.heap.objs t :=
    objs_write ho t
  have hkind := kind_write ho hinterface
  refine
    { counted := ?_
      refs := ?_
      roots_live := fun t ht => by rw [hkind]; exact hroots t ht
      alive := ?_
      freed_gone := ?_
      freed_once := h.freed_once
      freed_ready := h.freed_ready
      accounted := ?_ }
  · intro t o₁ ht
    have hwrite : (c.write a o').holds roots' t + o.refs.count t =
      c.holds roots' t + o'.refs.count t := holds_write ho t
    have hthis := hcount t
    rw [List.count_append, List.count_append] at hthis
    rw [hobjs] at ht
    split at ht
    · next heq =>
      cases ht
      subst heq
      have hold := h.counted t o ho
      simp only [if_true] at hthis
      unfold holds at hold hwrite ⊢
      omega
    · next hne =>
      have hold := h.counted t o₁ ht
      simp only [if_neg hne] at hthis
      unfold holds at hold hwrite ⊢
      omega
  · intro t o₁ ht
    rw [hobjs] at ht
    split at ht
    · next heq =>
      cases ht
      subst heq
      exact hrefs.congr (fun x _ => hkind x) rfl
    · exact (h.refs t o₁ ht).congr (fun x _ => hkind x) rfl
  · intro t o₁ ht hmem
    rw [hobjs] at ht
    split at ht
    · next heq =>
      cases ht
      subst heq
      exact halive.resolve_left hmem
    · next hne => exact h.alive t o₁ ht (fun hd => hmem (hdead t hd hne))
  · intro x hx
    obtain ⟨hlt, hgone⟩ := h.freed_gone x hx
    refine ⟨hlt, ?_⟩
    rw [hobjs, if_neg, hgone]
    intro heq
    rw [heq, ho] at hgone
    cases hgone
  · intro t hlt ht
    rw [hobjs] at ht
    split at ht
    · cases ht
    · exact h.accounted t hlt ht

/-- An object is overwritten by one with the same identity. -/
theorem Inv.write (h : Inv dead roots c) (ho : c.heap.objs a = some o) (hid : o'.id = o.id)
    (hinterface : o'.interface = o.interface) (hrefs : c.RefsOk a o')
    (hcount : ∀ t, (o'.refs ++ roots').count t + (if t = a then o.dependents else 0) =
      (o.refs ++ roots).count t + if t = a then o'.dependents else 0)
    (hroots : ∀ t ∈ roots', (c.kind t).isSome) (hdead : ∀ t ∈ dead, t ≠ a → t ∈ dead')
    (halive : a ∈ dead' ∨ ¬ o'.Expired) : Inv dead' roots' (c.write a o') := by
  have hnamed := named_write ho hid hinterface
  exact
    { h.heap.write ho hinterface hrefs hcount hroots hdead halive with
      stored := fun k s id t hs ht => by rw [hnamed]; exact h.stored k s id t hs ht
      owned := fun t id i ht => h.owned t id i (hnamed t ▸ ht)
      sized := h.sized }

/-- The counters do not care about the order of the roots. -/
theorem Inv.perm (h : Inv dead roots c) (hperm : roots.Perm roots') : Inv dead roots' c :=
  { h with
    counted := fun a o ho => by
      rw [h.counted a o ho, holds, holds, hperm.count_eq]
    roots_live := fun a ha => h.roots_live a (hperm.mem_iff.mpr ha) }

theorem Inv.revive (h : Inv (a :: dead) roots c) (ho : c.heap.objs a = some o)
    (halive : ¬ o.Expired) : Inv dead roots c :=
  { h with
    alive := fun t o' ht hmem => by
      by_cases heq : t = a
      · subst heq
        rw [ho] at ht
        cases ht
        exact halive
      · exact h.alive t o' ht (by simp [heq, hmem]) }

theorem Inv.grow (h : Inv dead roots c) (hdead : ∀ t ∈ dead, t ∈ dead') : Inv dead' roots c :=
  { h with alive := fun t o' ht hmem => h.alive t o' ht (fun hd => hmem (hdead t hd)) }

/-- The history of frees may be told in another order. -/
theorem Inv.refreed (h : Inv dead roots c) {freed : List (Addr × Obj)}
    (hperm : (freed.map Prod.fst).Perm (c.freed.map Prod.fst)) (hready : ∀ x ∈ freed, x.2.Freeable) :
    Inv dead roots { c with freed := freed } :=
  { h with
    freed_gone := fun x hx => by
      have hmem : x.1 ∈ c.freed.map Prod.fst :=
        hperm.mem_iff.mp (List.mem_map_of_mem hx)
      obtain ⟨y, hy, hxy⟩ := List.mem_map.mp hmem
      rw [← hxy]
      exact h.freed_gone y hy
    freed_once := hperm.nodup_iff.mpr h.freed_once
    freed_ready := hready
    accounted := fun t hlt ht => hperm.mem_iff.mpr (h.accounted t hlt ht) }

/-! ### An object is freed -/

theorem Inv.not_mem_refs (h : Inv dead roots c) (ho : c.heap.objs a = some o)
    (hzero : o.dependents = 0) {t : Addr} (ht : c.heap.objs t = some o') : a ∉ o'.refs := by
  intro hmem
  have hpos : 0 < o'.refs.count a := List.count_pos_iff.mpr hmem
  have hle : o'.refs.count a ≤ c.heap.holds Obj.refs a := Heap.count_le_holds ht a
  have hcounted := h.counted a o ho
  unfold holds at hcounted
  omega

theorem Inv.not_mem_roots (h : Inv dead roots c) (ho : c.heap.objs a = some o)
    (hzero : o.dependents = 0) : a ∉ roots := by
  intro hmem
  have hpos : 0 < roots.count a := List.count_pos_iff.mpr hmem
  have hcounted := h.counted a o ho
  unfold holds at hcounted
  omega

theorem objs_free (ho : c.heap.objs a = some o) (t : Addr) :
    (c.free a o').heap.objs t = if t = a then none else c.heap.objs t := Heap.objs_set ho none t

theorem named_free (ho : c.heap.objs a = some o) (hid : o.id = 0) (t : Addr) :
    (c.free a o').named t = c.named t := by
  unfold named
  rw [objs_free ho]
  split
  · next ht => rw [ht, ho, Option.bind_none, Option.bind_some, if_pos hid]
  · rfl

theorem kind_free (ho : c.heap.objs a = some o) {t : Addr} (ht : t ≠ a) :
    (c.free a o').kind t = c.kind t := by
  unfold kind
  rw [objs_free ho, if_neg ht]

/-- Freeing an expired object leaves its own references to be dropped. -/
theorem Inv.free (h : Inv (a :: dead) roots c) (ho : c.heap.objs a = some o)
    (hexpired : o.Expired) (hready : o.Freeable) : Inv dead (o.refs ++ roots) (c.free a o) := by
  have hobjs (t : Addr) : (c.free a o).heap.objs t = if t = a then none else c.heap.objs t :=
    objs_free ho t
  have hne {t : Addr} {o' : Obj} (ht : (c.free a o).heap.objs t = some o') :
      t ≠ a ∧ c.heap.objs t = some o' := by
    rw [hobjs] at ht
    split at ht
    · cases ht
    · next hta => exact ⟨hta, ht⟩
  refine
    { counted := ?_
      refs := ?_
      roots_live := ?_
      alive := ?_
      freed_gone := ?_
      freed_once := ?_
      freed_ready := ?_
      accounted := ?_
      stored := fun k s id t hs ht => by
        rw [named_free ho hexpired.1]
        exact h.stored k s id t hs ht
      owned := fun t id i ht => h.owned t id i (named_free ho hexpired.1 t ▸ ht)
      sized := h.sized }
  · intro t o' ht
    obtain ⟨hta, ht⟩ := hne ht
    have hset : (c.heap.set a none).holds Obj.refs t + o.refs.count t =
      c.heap.holds Obj.refs t + 0 := Heap.holds_set ho none t
    rw [h.counted t o' ht, holds, holds, List.count_append]
    change _ = (c.heap.set a none).holds Obj.refs t + _
    omega
  · intro t o' ht
    obtain ⟨-, hold⟩ := hne ht
    refine (h.refs t o' hold).congr (fun x hx => kind_free ho ?_) rfl
    rintro rfl
    exact h.not_mem_refs ho hexpired.2 hold hx
  · intro t ht
    have hta : t ≠ a := by
      rintro rfl
      rcases List.mem_append.mp ht with hmem | hmem
      · exact h.not_mem_refs ho hexpired.2 ho hmem
      · exact h.not_mem_roots ho hexpired.2 hmem
    rw [kind_free ho hta]
    rcases List.mem_append.mp ht with hmem | hmem
    · exact (h.refs a o ho).live hmem
    · exact h.roots_live t hmem
  · intro t o' ht hmem
    obtain ⟨hta, ht⟩ := hne ht
    exact h.alive t o' ht (by simp [hta, hmem])
  · intro x hx
    rcases List.mem_append.mp hx with hmem | hmem
    · obtain ⟨hlt, hgone⟩ := h.freed_gone x hmem
      refine ⟨hlt, ?_⟩
      rw [hobjs]
      split <;> simp [hgone]
    · obtain rfl : x = (a, o) := by simpa using hmem
      exact ⟨(Heap.lt_next ho : a < c.heap.next), by rw [hobjs, if_pos rfl]⟩
  · change ((c.freed ++ [(a, o)]).map Prod.fst).Nodup
    rw [List.map_append, List.nodup_append]
    refine ⟨h.freed_once, by simp, ?_⟩
    intro x hx y hy
    obtain ⟨z, hz, rfl⟩ := List.mem_map.mp hx
    obtain rfl : y = a := by simpa using hy
    rintro rfl
    rw [(h.freed_gone z hz).2] at ho
    cases ho
  · intro x hx
    rcases List.mem_append.mp hx with hmem | hmem
    · exact h.freed_ready x hmem
    · obtain rfl : x = (a, o) := by simpa using hmem
      exact hready
  · intro t hlt ht
    change t ∈ (c.freed ++ [(a, o)]).map Prod.fst
    rw [List.map_append, List.mem_append]
    rw [hobjs] at ht
    split at ht
    · next hta => exact .inr (by simp [hta])
    · exact .inl (h.accounted t hlt ht)

/-! ### Sessions -/

theorem sessions_setObjData {k : Nat} {s : Session Addr} (hs : c.sessions k = some s)
    (m : WlMap Addr) (i : Nat) : (c.setObjData k m).sessions i =
      if i = k then some { s with objData := m } else c.sessions i := by
  simp only [setObjData, hs, Option.map_some]

theorem objData_eq {k : Nat} {s : Session Addr} (hs : c.sessions k = some s) :
    c.objData k = s.objData := by
  unfold objData
  rw [hs]

/-- One session is opened, replaced or closed. -/
theorem Inv.setSession (h : Inv dead roots c) {k : Nat} (session : Option (Session Addr))
    (hstored : ∀ s id t, session = some s → s.objData.lookup id = some t →
      id < serverIdStart ∧ c.owner t = k ∧
        ∃ i, c.named t = some (id, i) ∧ s.objTypes.lookup id = some i)
    (howned : ∀ t id i, c.named t = some (id, i) → c.owner t = k →
      ∃ s, session = some s ∧ s.objData.lookup id = some t)
    (hsize : ∀ s, session = some s → s.objData.client.length ≤ maxObjects + 1) :
    Inv dead roots (c.setSession k session) :=
  { h with
    stored := fun k₁ s₁ id t hs₁ ht => by
      simp only [CaptureSession.setSession] at hs₁
      split at hs₁
      · next hk => exact hk ▸ hstored s₁ id t hs₁ ht
      · exact h.stored k₁ s₁ id t hs₁ ht
    owned := fun t id i ht => by
      by_cases hk : c.owner t = k
      · obtain ⟨s, hs, hlookup⟩ := howned t id i ht hk
        exact ⟨s, (if_pos hk).trans hs, hlookup⟩
      · obtain ⟨s, hs, hlookup⟩ := h.owned t id i ht
        exact ⟨s, (if_neg hk).trans hs, hlookup⟩
    sized := fun k₁ s₁ hs₁ => by
      simp only [CaptureSession.setSession] at hs₁
      split at hs₁
      · exact hsize s₁ hs₁
      · exact h.sized k₁ s₁ hs₁ }

/-- The map of a session is replaced by one that holds the same objects. -/
theorem Inv.resession (h : Inv dead roots c) {k : Nat} {s s' : Session Addr}
    (hs : c.sessions k = some s) (hdata : ∀ id, s'.objData.lookup id = s.objData.lookup id)
    (htypes : ∀ id a, s.objData.lookup id = some a → s'.objTypes.lookup id = s.objTypes.lookup id)
    (hsize : s'.objData.client.length ≤ maxObjects + 1) :
    Inv dead roots (c.setSession k (some s')) := by
  refine h.setSession (some s') ?_ ?_ ?_
  · rintro _ id t ⟨⟩ ht
    rw [hdata] at ht
    rw [htypes id t ht]
    exact h.stored k s id t hs ht
  · intro t id i ht hk
    obtain ⟨s₁, hs₁, hlookup⟩ := h.owned t id i ht
    rw [hk, hs] at hs₁
    cases hs₁
    exact ⟨s', rfl, (hdata id).trans hlookup⟩
  · rintro _ ⟨⟩
    exact hsize

theorem Inv.connect (h : Inv dead roots c) {k : Nat} (hs : c.sessions k = none) {s : Session Addr}
    (hempty : ∀ id, s.objData.lookup id = none)
    (hsize : s.objData.client.length ≤ maxObjects + 1) : Inv dead roots (c.setSession k (some s)) := by
  refine h.setSession (some s) ?_ ?_ ?_
  · rintro _ id t ⟨⟩ ht
    rw [hempty] at ht
    cases ht
  · intro t id i ht hk
    obtain ⟨s₁, hs₁, -⟩ := h.owned t id i ht
    rw [hk, hs] at hs₁
    cases hs₁
  · rintro _ ⟨⟩
    exact hsize

theorem Inv.disconnect (h : Inv dead roots c) {k : Nat} {s : Session Addr}
    (hs : c.sessions k = some s) (hempty : ∀ id, s.objData.lookup id = none) :
    Inv dead roots (c.setSession k none) := by
  refine h.setSession none nofun ?_ nofun
  intro t id i ht hk
  obtain ⟨s₁, hs₁, hlookup⟩ := h.owned t id i ht
  rw [hk, hs] at hs₁
  cases hs₁
  rw [hempty] at hlookup
  cases hlookup

/-! ### An object is destroyed -/

theorem named_eq (ho : c.heap.objs a = some o) (hid : o.id ≠ 0) :
    c.named a = some (o.id, o.interface) := by
  rw [named, ho, Option.bind_some, if_neg hid]

/-- What an entry of a session's map points to. -/
theorem Inv.entry (h : Inv dead roots c) {k : Nat} {s : Session Addr} (hs : c.sessions k = some s)
    {id : Nat} (hid : s.objData.lookup id = some a) :
    ∃ o, c.heap.objs a = some o ∧ o.id = id ∧ id ≠ 0 ∧ id < serverIdStart ∧ c.owner a = k ∧
      s.objTypes.lookup id = some o.interface := by
  obtain ⟨hlt, howner, i, hnamed, htype⟩ := h.stored k s id a hs hid
  unfold named at hnamed
  obtain ⟨o, ho, hsome⟩ := Option.bind_eq_some_iff.mp hnamed
  split at hsome
  · cases hsome
  · next hne =>
    cases hsome
    exact ⟨o, ho, rfl, hne, hlt, howner, htype⟩

/-- The id is taken off an object and out of the map. -/
theorem Inv.unname (h : Inv dead roots c) {k : Nat} {s : Session Addr} (hs : c.sessions k = some s)
    {id : Nat} (hentry : s.objData.lookup id = some a) (ho : c.heap.objs a = some o)
    (hid : o'.id = 0) (hinterface : o'.interface = o.interface) (hrefs : o'.refs = o.refs)
    (hdependents : o'.dependents = o.dependents) (hok : c.RefsOk a o → c.RefsOk a o') :
    Inv (a :: dead) roots ((c.setObjData k (s.objData.remove id)).write a o') := by
  obtain ⟨o₁, ho₁, hoid, hne, hlt, howner, -⟩ := h.entry hs hentry
  rw [ho] at ho₁
  cases ho₁
  -- the heap part is a write that keeps the counters
  have hheap : HeapInv dead roots (c.setObjData k (s.objData.remove id)) := { h.heap with }
  have hwrite : HeapInv (a :: dead) roots ((c.setObjData k (s.objData.remove id)).write a o') := by
    refine hheap.write ho hinterface ?_ ?_ h.roots_live ?_ (.inl List.mem_cons_self)
    · exact (hok (h.refs a o ho)).congr (fun _ _ => rfl) rfl
    · intro t
      rw [hrefs, hdependents]
    · exact fun t ht _ => List.mem_cons_of_mem _ ht
  have hobjs (t : Addr) : ((c.setObjData k (s.objData.remove id)).write a o').heap.objs t =
      if t = a then some o' else c.heap.objs t := Heap.objs_set ho (some o') t
  have hnamed (t : Addr) : ((c.setObjData k (s.objData.remove id)).write a o').named t =
      if t = a then none else c.named t := by
    unfold named
    rw [hobjs]
    split
    · rw [Option.bind_some, if_pos hid]
    · rfl
  have hsessions := sessions_setObjData hs (s.objData.remove id)
  refine { hwrite with stored := ?_, owned := ?_, sized := ?_ }
  · intro k₁ s₁ id₁ t hs₁ ht
    change (c.setObjData k (s.objData.remove id)).sessions k₁ = some s₁ at hs₁
    rw [hsessions] at hs₁
    rw [hnamed]
    split at hs₁
    · next hk =>
      cases hs₁
      change (s.objData.remove id).lookup id₁ = some t at ht
      rw [WlMap.lookup_remove hlt] at ht
      split at ht
      · cases ht
      · next hid₁ =>
        obtain ⟨o₂, ho₂, hoid₂, -⟩ := h.entry hs ht
        rw [if_neg, hk]
        · exact h.stored k s id₁ t hs ht
        · rintro rfl
          rw [ho] at ho₂
          cases ho₂
          exact hid₁ (hoid₂.symm.trans hoid)
    · next hk =>
      obtain ⟨-, -, -, -, -, howner₂, -⟩ := h.entry hs₁ ht
      rw [if_neg]
      · exact h.stored k₁ s₁ id₁ t hs₁ ht
      · rintro rfl
        exact hk (howner₂.symm.trans howner)
  · intro t id₁ i ht
    rw [hnamed] at ht
    split at ht
    · cases ht
    · next hta =>
      obtain ⟨s₁, hs₁, hlookup⟩ := h.owned t id₁ i ht
      by_cases hk : c.owner t = k
      · rw [hk, hs] at hs₁
        cases hs₁
        refine ⟨_, (hsessions _).trans (if_pos hk), ?_⟩
        change (s.objData.remove id).lookup id₁ = some t
        rw [WlMap.lookup_remove hlt, if_neg, hlookup]
        rintro rfl
        rw [hentry] at hlookup
        cases hlookup
        exact hta rfl
      · exact ⟨s₁, (hsessions _).trans ((if_neg hk).trans hs₁), hlookup⟩
  · intro k₁ s₁ hs₁
    replace hs₁ := (hsessions k₁).symm.trans hs₁
    split at hs₁
    · cases hs₁
      exact (WlMap.client_remove_length _ _).trans_le (h.sized k s hs)
    · exact h.sized k₁ s₁ hs₁

/-! ### An object is created -/

theorem kind_isSome_lt (ht : (c.kind a).isSome) : a < c.heap.next := by
  unfold kind at ht
  rw [Option.isSome_map] at ht
  obtain ⟨o, ho⟩ := Option.isSome_iff_exists.mp ht
  exact Heap.lt_next ho

theorem kind_alloc {k : Nat} {t : Addr} (ht : t ≠ c.heap.next) : (c.alloc k o).kind t = c.kind t := by
  unfold kind alloc
  rw [Heap.objs_alloc, if_neg ht]

/-- A new object takes its references over from the roots. -/
theorem HeapInv.alloc (h : HeapInv dead (o.refs ++ roots) c) (k : Nat) (hid : o.id ≠ 0)
    (hdependents : o.dependents = 0) (hrefs : (c.alloc k o).RefsOk c.heap.next o) :
    HeapInv dead roots (c.alloc k o) := by
  have hobjs (t : Addr) : (c.alloc k o).heap.objs t =
      if t = c.heap.next then some o else c.heap.objs t := Heap.objs_alloc c.heap o t
  have hne {t : Addr} (ht : (c.kind t).isSome) : t ≠ c.heap.next :=
    Nat.ne_of_lt (kind_isSome_lt ht)
  have hkind {t : Addr} (ht : (c.kind t).isSome) : (c.alloc k o).kind t = c.kind t :=
    kind_alloc (hne ht)
  have howner {t : Addr} (ht : t ≠ c.heap.next) : (c.alloc k o).owner t = c.owner t := if_neg ht
  refine
    { counted := ?_
      refs := ?_
      roots_live := ?_
      alive := ?_
      freed_gone := ?_
      freed_once := h.freed_once
      freed_ready := h.freed_ready
      accounted := ?_ }
  · intro t o₁ ht
    have hholds : (c.alloc k o).holds roots t = c.holds (o.refs ++ roots) t := by
      have halloc : (c.heap.alloc o).holds Obj.refs t = c.heap.holds Obj.refs t + o.refs.count t :=
        Heap.holds_alloc c.heap o t
      unfold holds
      rw [List.count_append]
      change (c.heap.alloc o).holds Obj.refs t + _ = _
      omega
    rw [hholds]
    rw [hobjs] at ht
    split at ht
    · next heq =>
      cases ht
      -- nobody refers to the new address
      have hheap : c.heap.holds Obj.refs t = 0 := by
        refine Heap.holds_eq_zero fun x o₂ hx hmem => ?_
        exact hne ((h.refs x o₂ hx).live hmem) heq
      have hroots : (o.refs ++ roots).count t = 0 :=
        List.count_eq_zero_of_not_mem fun hmem => hne (h.roots_live t hmem) heq
      rw [hdependents, holds, hheap, hroots]
    · exact h.counted t o₁ ht
  · intro t o₁ ht
    rw [hobjs] at ht
    split at ht
    · next heq =>
      cases ht
      rw [heq]
      exact hrefs
    · next hta =>
      have hold := h.refs t o₁ ht
      cases o₁ with
      | surface s₁ =>
          intro x hx
          have hlive := hold.live (show x ∈ (Obj.surface s₁).refs by simp [Obj.refs, hx])
          rw [hkind hlive, howner (hne hlive), howner hta]
          exact hold x hx
      | buffer b =>
          refine ⟨fun buf hbuf => ?_, hold.2⟩
          have hlive := hold.live (show buf.pool ∈ (Obj.buffer b).refs by simp [Obj.refs, hbuf])
          rw [hkind hlive]
          exact hold.1 buf hbuf
      | pool p => trivial
      | params p => trivial
  · intro t ht
    have hlive := h.roots_live t (List.mem_append_right _ ht)
    rw [hkind hlive]
    exact hlive
  · intro t o₁ ht hmem
    rw [hobjs] at ht
    split at ht
    · cases ht
      exact fun hexpired => hid hexpired.1
    · exact h.alive t o₁ ht hmem
  · intro x hx
    obtain ⟨hlt, hgone⟩ := h.freed_gone x hx
    refine ⟨Nat.lt_succ_of_lt hlt, ?_⟩
    rw [hobjs, if_neg (Nat.ne_of_lt hlt), hgone]
  · intro t hlt ht
    rw [hobjs] at ht
    split at ht
    · cases ht
    · next hta =>
      exact h.accounted t (Nat.lt_of_le_of_ne (Nat.le_of_lt_succ hlt) hta) ht

/-- A new object is entered in the map of its session. -/
theorem Inv.register (h : Inv dead (o.refs ++ roots) c) {k id : Nat} {s : Session Addr}
    {m : WlMap Addr} (hs : c.sessions k = some s) (hpos : id ≠ 0) (hlt : id < serverIdStart)
    (hfree : s.objData.lookup id = none) (htype : s.objTypes.lookup id = some o.interface)
    (hinsert : s.objData.insertAt id (some c.heap.next) = some m) (hid : o.id = id)
    (hdependents : o.dependents = 0) (hrefs : (c.alloc k o).RefsOk c.heap.next o) :
    Inv dead roots ((c.alloc k o).setObjData k m) := by
  have hheap := h.heap.alloc k (hid ▸ hpos) hdependents hrefs
  have hheap' : HeapInv dead roots ((c.alloc k o).setObjData k m) := { hheap with }
  have howner {t : Addr} (ht : t ≠ c.heap.next) :
      ((c.alloc k o).setObjData k m).owner t = c.owner t := if_neg ht
  have hnamed (t : Addr) : ((c.alloc k o).setObjData k m).named t =
      if t = c.heap.next then some (id, o.interface) else c.named t := by
    change ((c.heap.alloc o).objs t).bind _ = _
    rw [Heap.objs_alloc]
    split
    · rw [Option.bind_some, hid, if_neg hpos]
    · rfl
  have hsessions : ∀ i, ((c.alloc k o).setObjData k m).sessions i =
      if i = k then some { s with objData := m } else c.sessions i :=
    sessions_setObjData (c := c.alloc k o) hs m
  have hnew (t : Addr) {o₁ : Obj} (ht : c.heap.objs t = some o₁) : t ≠ c.heap.next :=
    Nat.ne_of_lt (Heap.lt_next ht)
  refine { hheap' with stored := ?_, owned := ?_, sized := ?_ }
  · intro k₁ s₁ id₁ t hs₁ ht
    rw [hsessions] at hs₁
    rw [hnamed]
    split at hs₁
    · next hk =>
      cases hs₁
      change m.lookup id₁ = some t at ht
      rw [WlMap.lookup_insertAt hinsert] at ht
      split at ht
      · next hid₁ =>
        cases ht
        rw [if_pos rfl, hid₁]
        exact ⟨hlt, (if_pos rfl).trans hk.symm, o.interface, rfl, htype⟩
      · obtain ⟨o₂, ho₂, -⟩ := h.entry hs ht
        rw [if_neg (hnew t ho₂), howner (hnew t ho₂), hk]
        exact h.stored k s id₁ t hs ht
    · obtain ⟨o₂, ho₂, -⟩ := h.entry hs₁ ht
      rw [if_neg (hnew t ho₂), howner (hnew t ho₂)]
      exact h.stored k₁ s₁ id₁ t hs₁ ht
  · intro t id₁ i ht
    rw [hnamed] at ht
    split at ht
    · next heq =>
      cases ht
      have hk : ((c.alloc k o).setObjData k m).owner t = k := if_pos heq
      refine ⟨_, by rw [hk, hsessions, if_pos rfl], ?_⟩
      change m.lookup id = some t
      rw [WlMap.lookup_insertAt hinsert, if_pos rfl, heq]
    · next hta =>
      obtain ⟨s₁, hs₁, hlookup⟩ := h.owned t id₁ i ht
      rw [howner hta]
      by_cases hk : c.owner t = k
      · rw [hk, hs] at hs₁
        cases hs₁
        refine ⟨_, (hsessions _).trans (if_pos hk), ?_⟩
        change m.lookup id₁ = some t
        rw [WlMap.lookup_insertAt hinsert, if_neg, hlookup]
        rintro rfl
        rw [hfree] at hlookup
        cases hlookup
      · exact ⟨s₁, (hsessions _).trans ((if_neg hk).trans hs₁), hlookup⟩
  · intro k₁ s₁ hs₁
    rw [hsessions] at hs₁
    split at hs₁
    · cases hs₁
      exact WlMap.insertAt_client_le hinsert (h.sized k s hs)
    · exact h.sized k₁ s₁ hs₁

end CaptureSession

end Stratus.Capture
