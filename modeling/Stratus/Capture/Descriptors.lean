import Stratus.Capture.PlaneRequests
import Mathlib.Data.List.Nodup

/-! The descriptors that `zwp_linux_buffer_params_add` duplicates: who owns them, who closes them,
and what `zwp_linux_buffer_params_create_immed` makes of the planes. -/
namespace Stratus.Capture

open Stratus.Lib Proxy
open CaptureSession (Op Env)

/-- The descriptors among planes; what is negative is none. -/
def descriptorsOf (planes : List Plane) : List Nat :=
  (planes.filter fun plane => 0 ≤ plane.fd).map fun plane => plane.fd.toNat

/-- The descriptors that an object owns. -/
def Obj.descriptors : Obj → List Nat
  | .surface _ => []
  | .buffer b => (b.dmaBuf.map fun d => descriptorsOf d.planes).getD []
  | .pool _ => []
  | .params p => descriptorsOf p.planes

namespace CaptureSession

/-- How many objects own a descriptor. -/
def owners (c : CaptureSession) (fd : Nat) : Nat := c.heap.holds Obj.descriptors fd

/-- What has been closed: `zwp_linux_buffer_params_destroy` and `dma_buffer_free` close the
descriptors of the object that is freed. -/
def closed (c : CaptureSession) : List Nat := c.freed.flatMap fun x => x.2.descriptors

end CaptureSession

/-- A run with its history: what `dup` has returned, the planes that were added to each params
object with their indices, and for each buffer that was made of planes those it got and those that
had been added. -/
structure DmaRun where
  capture : CaptureSession
  dups : List Nat
  added : Addr → List (Nat × Plane)
  copies : List (List Plane × List (Nat × Plane))

namespace DmaRun

def start (width height : Nat) : DmaRun where
  capture := .start width height
  dups := []
  added _ := []
  copies := []

/-- A plane is added, unless `dup` fails. -/
def noteAdd (r : DmaRun) (a : Addr) (dup : Option Int) (plane offset stride : Nat) : DmaRun :=
  match dup with
  | none => r
  | some fd =>
      { r with
        dups := r.dups ++ [fd.toNat]
        added := fun x =>
          if x = a then r.added a ++ [(plane, { fd := fd, offset := offset, stride := stride })]
          else r.added x }

/-- A buffer has been made with this id, if any. -/
def noteCopy (r : DmaRun) (a : Addr) (k id : Nat) : DmaRun :=
  match ((r.capture.objData k).lookup id).bind r.capture.heap.objs with
  | some (.buffer b) =>
      match b.dmaBuf with
      | some d => { r with copies := r.copies ++ [(d.planes, r.added a)] }
      | none => r
  | _ => r

/-- The module performs an operation. -/
def next (r : DmaRun) (op : Op) : Except Fault DmaRun := do
  let c ← r.capture.perform op
  let r' := { r with capture := c }
  match op with
  | .message k env (.paramsAdd sender plane offset stride _ _) =>
      match (r.capture.objData k).lookup sender with
      | some a => return r'.noteAdd a env.dup plane offset stride
      | none => return r'
  | .message k _ (.createImmed sender id _ _ _) =>
      match (r.capture.objData k).lookup sender with
      | some a => return r'.noteCopy a k id
      | none => return r'
  | _ => return r'

/-- The descriptor is open. -/
def Open (r : DmaRun) (fd : Nat) : Prop := r.capture.closed.count fd < r.dups.count fd

/-- `dup` returns a descriptor that is not open. -/
def Fresh (r : DmaRun) : Op → Prop
  | .message _ env (.paramsAdd _ _ _ _ _ _) => ∀ fd ∈ env.dup, 0 ≤ fd ∧ ¬ r.Open fd.toNat
  | _ => True

/-- A plane is added where there is none and at most four are added; and a buffer is made when the
planes that are there are as many as were added, and come first. -/
def PlanesInOrder (r : DmaRun) : Op → Prop
  | .message k env (.paramsAdd sender plane _ _ _ _) =>
      ∀ a ∈ (r.capture.objData k).lookup sender, ∀ p, r.capture.heap.objs a = some (.params p) →
        (∀ old ∈ p.planes[plane]?, old.fd < 0) ∧ (p.numPlanes < 4 ∨ env.dup = none)
  | .message k env (.createImmed sender _ _ _ _) =>
      ∀ a ∈ (r.capture.objData k).lookup sender, ∀ p, r.capture.heap.objs a = some (.params p) →
        env.malloc = true → ∀ i plane, p.planes[i]? = some plane → (0 ≤ plane.fd ↔ i < p.numPlanes)
  | _ => True

def system (width height : Nat) (allowed : DmaRun → Op → Prop) : Labelled DmaRun Op where
  init r := r = start width height
  step r op r' := (r.capture.Allowed op ∧ r.Fresh op) ∧ allowed r op ∧ r.next op = .ok r'

/-- Each descriptor that `dup` has returned is owned by one object until it is closed, and closed
once for each time that it was returned; no params object has more than four planes; and what a
buffer gets are the planes that were added, at their indices. -/
structure Owned (r : DmaRun) : Prop where
  owners : ∀ fd, r.capture.owners fd = if r.dups.count fd = r.capture.closed.count fd then 0 else 1
  closed : ∀ fd, r.capture.closed.count fd ≤ r.dups.count fd ∧
    r.dups.count fd ≤ r.capture.closed.count fd + 1
  planes : ∀ a p, r.capture.heap.objs a = some (.params p) → p.numPlanes ≤ 4
  copies : ∀ copy ∈ r.copies, ∀ i plane, copy.1[i]? = some plane ↔ (i, plane) ∈ copy.2

end DmaRun

/-! ### What single changes keep -/

theorem descriptors_body {o o' : Obj} (h : o'.body = o.body) : o'.descriptors = o.descriptors := by
  cases o <;> cases o' <;> simp_all [Obj.body, Obj.descriptors]

/-- An object that is made with no descriptor in it. -/
def Obj.Plain : Obj → Prop
  | .surface _ => True
  | .buffer b => b.dmaBuf = none
  | .pool _ => True
  | .params p => p.numPlanes = 0 ∧ p.planes = List.replicate 4 { fd := -1, offset := 0, stride := 0 }

theorem plain_of_makes {op : Op} {c : CaptureSession} {o : Obj} (h : op.Makes c o) : o.Plain := by
  cases op with
  | message k env r =>
      cases r with
      | createPool _ _ =>
          obtain ⟨p, rfl, -⟩ := h
          trivial
      | createBuffer _ _ _ _ _ _ _ =>
          obtain ⟨b, buf, p, rfl, -, -, hdma, -⟩ := h
          exact hdma
      | createParams _ =>
          obtain ⟨p, rfl, hplain⟩ := h
          exact hplain
      | createSurface _ =>
          obtain ⟨x, rfl⟩ := h
          trivial
      | _ => cases h
  | _ => cases h

theorem Obj.Plain.descriptors {o : Obj} (h : o.Plain) : o.descriptors = [] := by
  cases o with
  | surface _ => rfl
  | buffer b => rw [Obj.descriptors, show b.dmaBuf = none from h]; rfl
  | pool _ => rfl
  | params p => rw [Obj.descriptors, h.2]; rfl

namespace CaptureSession

variable {op : Op} {c c' : CaptureSession} {fd : Nat}

/-- How often a descriptor has been taken: it is owned or it has been closed. -/
def takenCount (c : CaptureSession) (fd : Nat) : Nat := c.owners fd + c.closed.count fd

theorem closed_free (c : CaptureSession) (a : Addr) (o : Obj) :
    (c.free a o).closed = c.closed ++ o.descriptors := by
  change (c.freed ++ [(a, o)]).flatMap _ = _
  rw [List.flatMap_append]
  exact congrArg _ (List.flatMap_singleton _ _)

theorem Change.takenCount (h : Change op.Makes c c') : c'.takenCount fd = c.takenCount fd := by
  cases h with
  | @write a o o' ho hbody =>
      have hholds : (c.write a o').owners fd + o.descriptors.count fd =
          c.owners fd + o'.descriptors.count fd := Heap.holds_set ho (some o') fd
      rw [descriptors_body hbody] at hholds
      have howners : (c.write a o').owners fd = c.owners fd := Nat.add_right_cancel hholds
      rw [CaptureSession.takenCount, howners]
      rfl
  | @free a o ho =>
      have hholds : (c.free a o).owners fd + o.descriptors.count fd = c.owners fd :=
        Heap.holds_set ho none fd
      rw [CaptureSession.takenCount, CaptureSession.takenCount, closed_free, List.count_append]
      omega
  | @alloc k o hmade =>
      have hholds : (c.alloc k o).owners fd = c.owners fd + o.descriptors.count fd :=
        Heap.holds_alloc c.heap o fd
      rw [(plain_of_makes hmade).descriptors, List.count_nil, Nat.add_zero] at hholds
      rw [CaptureSession.takenCount, hholds]
      rfl
  | unqueue i => rfl
  | push k hb haccepts => rfl
  | other heap freed =>
      rw [CaptureSession.takenCount, CaptureSession.takenCount, owners, owners, closed, closed, heap,
        freed]

theorem Changes.takenCount (h : Changes op.Makes c c') : c'.takenCount fd = c.takenCount fd :=
  kept_of_steps (fun c' => c'.takenCount fd = c.takenCount fd) h
    (fun _ _ hstep heq => hstep.takenCount.trans heq) rfl

end CaptureSession

/-- What has been closed stays so. -/
theorem closed_le {op : Op} {c c' : CaptureSession} (h : CaptureSession.Changes op.Makes c c') (fd : Nat) :
    c.closed.count fd ≤ c'.closed.count fd := by
  refine kept_of_steps (fun c' => c.closed.count fd ≤ c'.closed.count fd) h ?_ (Nat.le_refl _)
  intro c₁ c₂ hstep hle
  refine hle.trans ?_
  cases hstep with
  | @free a o ho =>
      rw [CaptureSession.closed_free, List.count_append]
      exact Nat.le_add_right _ _
  | other _ freed => rw [CaptureSession.closed, CaptureSession.closed, freed]
  | _ => exact Nat.le_refl _

/-! ### Planes -/

theorem descriptorsOf_cons (plane : Plane) (planes : List Plane) :
    descriptorsOf (plane :: planes) =
      (if 0 ≤ plane.fd then [plane.fd.toNat] else []) ++ descriptorsOf planes := by
  unfold descriptorsOf
  rw [List.filter_cons]
  split
  · next h => rw [if_pos (of_decide_eq_true h)]; rfl
  · next h => rw [if_neg (fun hfd => h (decide_eq_true hfd))]; rfl

theorem descriptorsOf_append (planes planes' : List Plane) :
    descriptorsOf (planes ++ planes') = descriptorsOf planes ++ descriptorsOf planes' := by
  rw [descriptorsOf, List.filter_append, List.map_append]
  rfl

/-- Where there was none. -/
theorem count_descriptorsOf_set {planes : List Plane} {i : Nat} {old new : Plane}
    (hold : planes[i]? = some old) (hnone : old.fd < 0) (fd : Nat) :
    (descriptorsOf (planes.set i new)).count fd =
      (descriptorsOf planes).count fd + (if 0 ≤ new.fd then [new.fd.toNat] else []).count fd := by
  obtain ⟨hlt, hget⟩ := List.getElem?_eq_some_iff.mp hold
  have hsplit : planes = planes.take i ++ old :: planes.drop (i + 1) := by
    rw [← hget, List.getElem_cons_drop, List.take_append_drop]
  have hset : planes.set i new = planes.take i ++ new :: planes.drop (i + 1) :=
    List.set_eq_take_append_cons_drop.trans (if_pos hlt)
  have hcount : (descriptorsOf planes).count fd =
      (descriptorsOf (planes.take i ++ old :: planes.drop (i + 1))).count fd := by rw [← hsplit]
  rw [hset, hcount]
  simp only [descriptorsOf_append, descriptorsOf_cons, List.count_append, if_neg (not_le.mpr hnone),
    List.count_nil]
  omega

theorem descriptorsOf_eq_nil {planes : List Plane} (h : ∀ plane ∈ planes, plane.fd < 0) :
    descriptorsOf planes = [] := by
  rw [descriptorsOf, List.filter_eq_nil_iff.mpr, List.map_nil]
  intro plane hmem hfd
  exact absurd (of_decide_eq_true hfd) (not_le.mpr (h plane hmem))

/-- What has been listed for as many indices as there are is all that is listed. -/
theorem mem_of_listed {α : Type} {xs : List α} {listed : List (Nat × α)}
    (h : ∀ i x, xs[i]? = some x → (i, x) ∈ listed) (hlength : listed.length ≤ xs.length) {i : Nat}
    {x : α} (hmem : (i, x) ∈ listed) : xs[i]? = some x := by
  have hnodup : (xs.zipIdx.map Prod.swap).Nodup := by
    refine List.Nodup.of_map Prod.fst ?_
    rw [List.map_map]
    change (xs.zipIdx.map Prod.snd).Nodup
    rw [List.zipIdx_map_snd]
    exact List.nodup_range'
  have hsub : xs.zipIdx.map Prod.swap ⊆ listed := by
    intro pair hpair
    obtain ⟨entry, hentry, rfl⟩ := List.mem_map.mp hpair
    exact h _ _ (List.mem_zipIdx_iff_getElem?.mp hentry)
  have hperm := (List.subperm_of_subset hnodup hsub).perm_of_length_le (by
    rw [List.length_map, List.length_zipIdx]
    exact hlength)
  obtain ⟨entry, hentry, heq⟩ := List.mem_map.mp (hperm.mem_iff.mpr hmem)
  obtain ⟨rfl, rfl⟩ := Prod.mk.inj heq
  exact List.mem_zipIdx_iff_getElem?.mp hentry

/-! ### Slots -/

/-- The planes of a params object and what has been added to it. -/
structure Slots (p : Params) (adds : List (Nat × Plane)) : Prop where
  length : p.planes.length = 4
  count : p.numPlanes = adds.length
  few : p.numPlanes ≤ 4
  filled : ∀ i plane, p.planes[i]? = some plane → 0 ≤ plane.fd → (i, plane) ∈ adds

/-- Of all params objects. -/
structure AllSlots (c : CaptureSession) (added : Addr → List (Nat × Plane)) : Prop where
  slots : ∀ a p, c.heap.objs a = some (.params p) → Slots p (added a)
  unused : ∀ a, c.heap.next ≤ a → added a = []

section Slots

variable {op : Op} {c c' : CaptureSession} {added : Addr → List (Nat × Plane)} {a : Addr} {p : Params}

theorem params_of_body {o : Obj} (h : (Obj.params p).body = o.body) : o = .params p := by
  cases o with
  | params q => exact congrArg Obj.params (Obj.params.inj h).symm
  | _ => cases h

theorem AllSlots.change (h : AllSlots c added) (hchange : CaptureSession.Change op.Makes c c') :
    AllSlots c' added := by
  cases hchange with
  | @write a o o' ho hbody =>
      refine ⟨fun x p hp => h.slots x p ?_, h.unused⟩
      rw [CaptureSession.write, Heap.objs_set ho] at hp
      split at hp
      · next hx =>
        obtain rfl := Option.some.inj hp
        rw [hx, ho, params_of_body hbody]
      · exact hp
  | @free a o ho =>
      refine ⟨fun x p hp => h.slots x p ?_, h.unused⟩
      rw [CaptureSession.free, Heap.objs_set ho] at hp
      split at hp
      · cases hp
      · exact hp
  | @alloc k o hmade =>
      refine ⟨fun x p hp => ?_, fun x hx => h.unused x (Nat.le_of_succ_le hx)⟩
      rw [CaptureSession.alloc, Heap.objs_alloc] at hp
      split at hp
      · next hx =>
        obtain rfl := Option.some.inj hp
        obtain ⟨hnone, hplanes⟩ := plain_of_makes hmade
        rw [hx, h.unused _ (Nat.le_refl _)]
        refine ⟨by rw [hplanes]; rfl, hnone, by omega, fun i plane hplane hfd => ?_⟩
        rw [hplanes] at hplane
        obtain rfl := List.eq_of_mem_replicate (List.mem_of_getElem? hplane)
        exact absurd hfd (by decide)
      · exact h.slots x p hp
  | unqueue i => exact ⟨h.slots, h.unused⟩
  | push k hb haccepts => exact ⟨h.slots, h.unused⟩
  | other heap => exact ⟨heap ▸ h.slots, heap ▸ h.unused⟩

theorem AllSlots.changes (h : AllSlots c added) (hchanges : CaptureSession.Changes op.Makes c c') :
    AllSlots c' added :=
  kept_of_steps (fun c => AllSlots c added) hchanges (fun _ _ hstep hslots => hslots.change hstep) h

/-- One params object is overwritten. -/
theorem AllSlots.writeParams (h : AllSlots c added) (hp : c.heap.objs a = some (.params p))
    {p' : Params} {adds : List (Nat × Plane)} (hslots : Slots p' adds) :
    AllSlots (c.write a (.params p')) fun x => if x = a then adds else added x := by
  constructor
  · intro x q hq
    rw [CaptureSession.write, Heap.objs_set hp] at hq
    split at hq
    · next hx =>
      obtain rfl := Obj.params.inj (Option.some.inj hq)
      rwa [if_pos hx]
    · next hx =>
      rw [if_neg hx]
      exact h.slots x q hq
  · intro x hx
    have hlt := Heap.lt_next hp
    have hle : c.heap.next ≤ x := hx
    rw [if_neg (Nat.ne_of_gt (hlt.trans_le hle))]
    exact h.unused x hle

/-- A plane is set where there was none. -/
theorem Slots.set {p p' : Params} {adds adds' : List (Nat × Plane)} (h : Slots p adds) {i : Nat}
    {new : Plane} (hplanes : p'.planes = p.planes.set i new) (hcount : p'.numPlanes = adds'.length)
    (hfew : p'.numPlanes ≤ 4) (hsub : adds ⊆ adds') (hnew : 0 ≤ new.fd → (i, new) ∈ adds') :
    Slots p' adds' where
  length := by rw [hplanes, List.length_set, h.length]
  count := hcount
  few := hfew
  filled j plane hplane hfd := by
    rw [hplanes] at hplane
    rcases getElem?_set_cases hplane with ⟨rfl, rfl⟩ | ⟨-, hold⟩
    · exact hnew hfd
    · exact hsub (h.filled j plane hold hfd)

/-- A buffer is made. -/
theorem AllSlots.allocBuffer (h : AllSlots c added) (k : Nat) (b : Buffer) :
    AllSlots (c.alloc k (.buffer b)) added := by
  refine ⟨fun x p hp => ?_, fun x hx => h.unused x (Nat.le_of_succ_le hx)⟩
  rw [CaptureSession.alloc, Heap.objs_alloc] at hp
  split at hp
  · cases hp
  · exact h.slots x p hp

/-- All planes that are there are handed over. -/
theorem descriptorsOf_take {planes : List Plane} {n : Nat}
    (h : ∀ i plane, planes[i]? = some plane → (0 ≤ plane.fd ↔ i < n)) :
    descriptorsOf (planes.take n) = descriptorsOf planes := by
  have hrest : descriptorsOf (planes.drop n) = [] := by
    refine descriptorsOf_eq_nil fun plane hmem => ?_
    obtain ⟨j, hj⟩ := List.mem_iff_getElem?.mp hmem
    rw [List.getElem?_drop] at hj
    exact not_le.mp (mt (h _ _ hj).mp (by omega))
  conv_rhs => rw [← List.take_append_drop n planes, descriptorsOf_append, hrest, List.append_nil]

/-- They are those that were added. -/
theorem Slots.take {p : Params} {adds : List (Nat × Plane)} (hslots : Slots p adds)
    (h : ∀ i plane, p.planes[i]? = some plane → (0 ≤ plane.fd ↔ i < p.numPlanes)) (i : Nat)
    (plane : Plane) : (p.planes.take p.numPlanes)[i]? = some plane ↔ (i, plane) ∈ adds := by
  have hlisted (i : Nat) (plane : Plane) (hplane : (p.planes.take p.numPlanes)[i]? = some plane) :
      (i, plane) ∈ adds := by
    rw [List.getElem?_take] at hplane
    split at hplane
    · next hlt => exact hslots.filled i plane hplane ((h i plane hplane).mpr hlt)
    · cases hplane
  refine ⟨hlisted i plane, mem_of_listed hlisted ?_⟩
  rw [List.length_take, hslots.length, ← hslots.count]
  exact le_min (Nat.le_refl _) hslots.few

end Slots

theorem descriptors_handOver (p : Params) : (Obj.params p.handOver).descriptors = [] := by
  refine descriptorsOf_eq_nil fun plane hmem => ?_
  obtain ⟨old, -, rfl⟩ := List.mem_map.mp hmem
  exact Int.negSucc_lt_zero 0

theorem Slots.handOver {p : Params} {adds : List (Nat × Plane)} (h : Slots p adds) :
    Slots p.handOver adds where
  length := (List.length_map _).trans h.length
  count := h.count
  few := h.few
  filled i plane hplane hfd := by
    obtain ⟨old, -, rfl⟩ := List.mem_map.mp (List.mem_of_getElem? hplane)
    exact absurd hfd (not_le.mpr (Int.negSucc_lt_zero 0))

/-! ### Runs -/

namespace DmaRun

variable {op : Op} {r r' : DmaRun}

/-- The invariant. -/
structure Inv (r : DmaRun) : Prop where
  ready : r.capture.Ready
  slots : AllSlots r.capture r.added
  taken : ∀ fd, r.capture.takenCount fd = r.dups.count fd
  once : ∀ fd, r.dups.count fd ≤ r.capture.closed.count fd + 1
  copies : ∀ copy ∈ r.copies, ∀ i plane, copy.1[i]? = some plane ↔ (i, plane) ∈ copy.2

theorem Inv.owned (h : r.Inv) : r.Owned where
  owners fd := by
    have htaken : r.capture.owners fd + r.capture.closed.count fd = r.dups.count fd := h.taken fd
    have honce := h.once fd
    split <;> omega
  closed fd := by
    have htaken : r.capture.owners fd + r.capture.closed.count fd = r.dups.count fd := h.taken fd
    exact ⟨by omega, h.once fd⟩
  planes a p hp := (h.slots.slots a p hp).few
  copies := h.copies

theorem Inv.start (width height : Nat) : (start width height).Inv where
  ready := CaptureSession.start_ready width height
  slots := ⟨nofun, fun _ _ => rfl⟩
  taken _ := rfl
  once _ := Nat.zero_le _
  copies := nofun

/-- Nothing about planes happens. -/
theorem Inv.changes (h : r.Inv) {c : CaptureSession} (hready : c.Ready)
    (hchanges : CaptureSession.Changes op.Makes r.capture c) : ({ r with capture := c } : DmaRun).Inv where
  ready := hready
  slots := h.slots.changes hchanges
  taken fd := (CaptureSession.Changes.takenCount hchanges).trans (h.taken fd)
  once fd := (h.once fd).trans (Nat.add_le_add_right (closed_le hchanges fd) 1)
  copies := h.copies

theorem takenCount_write {c : CaptureSession} {a : Addr} {p p' : Params} {fd n : Nat}
    (hp : c.heap.objs a = some (.params p))
    (hcount : (descriptorsOf p'.planes).count fd = (descriptorsOf p.planes).count fd + n) :
    (c.write a (.params p')).takenCount fd = c.takenCount fd + n := by
  have hholds : (c.write a (.params p')).owners fd + (descriptorsOf p.planes).count fd =
      c.owners fd + (descriptorsOf p'.planes).count fd := Heap.holds_set hp (some (.params p')) fd
  change (c.write a (.params p')).owners fd + c.closed.count fd = c.owners fd + c.closed.count fd + n
  omega

theorem Inv.noteAdd (h : r.Inv) {c₁ : CaptureSession} {a : Addr} {p : Params} {dup : Option Int}
    {plane offset stride modifier : Nat}
    (hready : (c₁.write a (.params (p.add dup plane offset stride modifier))).Ready)
    (hchanges : CaptureSession.Changes op.Makes r.capture c₁) (hp : c₁.heap.objs a = some (.params p))
    (hplane : plane < 4) (hempty : ∀ old ∈ p.planes[plane]?, old.fd < 0)
    (hfew : p.numPlanes < 4 ∨ dup = none) (hfresh : ∀ fd ∈ dup, 0 ≤ fd ∧ ¬ r.Open fd.toNat) :
    (({ r with capture := c₁.write a (.params (p.add dup plane offset stride modifier)) } :
      DmaRun).noteAdd a dup plane offset stride).Inv := by
  have hslots₁ := h.slots.changes hchanges
  have hslots := hslots₁.slots a p hp
  have hlt : plane < p.planes.length := hslots.length ▸ hplane
  have hold : p.planes[plane]? = some p.planes[plane] := List.getElem?_eq_getElem hlt
  have hcount (new : Plane) (fd : Nat) : (descriptorsOf (p.planes.set plane new)).count fd =
      (descriptorsOf p.planes).count fd + (if 0 ≤ new.fd then [new.fd.toNat] else []).count fd :=
    count_descriptorsOf_set hold (hempty _ hold) fd
  have htaken (fd : Nat) : c₁.takenCount fd = r.dups.count fd :=
    (CaptureSession.Changes.takenCount hchanges).trans (h.taken fd)
  have hclosed := closed_le hchanges
  cases dup with
  | none =>
      have hsame : (fun x => if x = a then r.added a else r.added x) = r.added := by
        funext x
        split
        · next hx => rw [hx]
        · rfl
      refine ⟨hready, ?_, fun fd => ?_, fun fd => ?_, h.copies⟩
      · have hset : Slots (p.add none plane offset stride modifier) (r.added a) :=
          hslots.set rfl hslots.count hslots.few (List.Subset.refl _)
            fun hfd => absurd hfd (not_le.mpr (Int.negSucc_lt_zero 0))
        have hslots' := hslots₁.writeParams hp hset
        rwa [hsame] at hslots'
      · refine (takenCount_write hp (hcount _ fd)).trans ?_
        exact htaken fd
      · exact (h.once fd).trans (Nat.add_le_add_right (hclosed fd) 1)
  | some new =>
      obtain ⟨hnew, hfree⟩ := hfresh new rfl
      have hfour : p.numPlanes < 4 := hfew.resolve_right nofun
      refine ⟨hready, ?_, fun fd => ?_, fun fd => ?_, h.copies⟩
      · refine hslots₁.writeParams hp (hslots.set rfl ?_ hfour ?_ ?_)
        · change p.numPlanes + 1 = (r.added a ++ [_]).length
          rw [List.length_append, ← hslots.count, List.length_singleton]
        · exact List.subset_append_left _ _
        · exact fun _ => List.mem_append_right _ List.mem_cons_self
      · refine (takenCount_write hp (hcount _ fd)).trans ?_
        change c₁.takenCount fd + (if 0 ≤ new then [new.toNat] else []).count fd =
          (r.dups ++ [new.toNat]).count fd
        rw [if_pos hnew, htaken, List.count_append]
      · change (r.dups ++ [new.toNat]).count fd ≤ c₁.closed.count fd + 1
        rw [List.count_append, List.count_singleton]
        have hle := hclosed fd
        split
        · next hfd =>
          -- the descriptor was not open
          rw [beq_iff_eq] at hfd
          rw [hfd] at hfree
          have hnone : r.dups.count fd ≤ r.capture.closed.count fd := not_lt.mp hfree
          omega
        · have honce := h.once fd
          omega

theorem Inv.noteCopy (h : r.Inv) {c₁ c : CaptureSession} {a : Addr} {p : Params} {k id : Nat}
    {s : Session Addr} {m : WlMap Addr} {b : Buffer} {d : DmaBuffer} (hready : c.Ready)
    (hchanges : CaptureSession.Changes op.Makes r.capture c₁) (hp : c₁.heap.objs a = some (.params p))
    (hs : c₁.sessions k = some s) (hm : s.objData.insertAt id (some c₁.heap.next) = some m)
    (hd : b.dmaBuf = some d) (hplanes : d.planes = p.planes.take p.numPlanes)
    (hc : c = ((c₁.write a (.params p.handOver)).alloc k (.buffer b)).setObjData k m)
    (horder : ∀ i plane, p.planes[i]? = some plane → (0 ≤ plane.fd ↔ i < p.numPlanes)) :
    (({ r with capture := c } : DmaRun).noteCopy a k id).Inv := by
  have hslots₁ := h.slots.changes hchanges
  have hslots := hslots₁.slots a p hp
  have hsame : (fun x => if x = a then r.added a else r.added x) = r.added := by
    funext x
    split
    · next hx => rw [hx]
    · rfl
  have hwritten := hslots₁.writeParams hp hslots.handOver
  rw [hsame] at hwritten
  have hslots' : AllSlots c r.added := by
    rw [hc]
    exact { hwritten.allocBuffer k b with }
  have htaken (fd : Nat) : c.takenCount fd = r.dups.count fd := by
    have hwrite : (c₁.write a (.params p.handOver)).owners fd + (descriptorsOf p.planes).count fd =
        c₁.owners fd + (Obj.params p.handOver).descriptors.count fd :=
      Heap.holds_set hp (some (.params p.handOver)) fd
    have hbuffer : (Obj.buffer b).descriptors = descriptorsOf p.planes := by
      rw [Obj.descriptors, hd, ← descriptorsOf_take horder, ← hplanes]
      rfl
    have halloc : c.owners fd = (c₁.write a (.params p.handOver)).owners fd +
        (Obj.buffer b).descriptors.count fd := by
      rw [hc]
      exact Heap.holds_alloc (c₁.write a (.params p.handOver)).heap (.buffer b) fd
    have hclosed : c.closed = c₁.closed := by
      rw [hc]
      rfl
    rw [descriptors_handOver, List.count_nil] at hwrite
    rw [hbuffer] at halloc
    have hbefore : c₁.owners fd + c₁.closed.count fd = r.dups.count fd :=
      (CaptureSession.Changes.takenCount hchanges).trans (h.taken fd)
    rw [CaptureSession.takenCount, hclosed]
    omega
  have honce (fd : Nat) : r.dups.count fd ≤ c.closed.count fd + 1 := by
    rw [hc]
    exact (h.once fd).trans (Nat.add_le_add_right (closed_le hchanges fd) 1)
  have hmade : ((c.objData k).lookup id).bind c.heap.objs = some (.buffer b) := by
    have hdata : c.objData k = m := by
      have hs' : ((c₁.write a (.params p.handOver)).alloc k (.buffer b)).sessions k = some s := hs
      rw [hc, CaptureSession.objData_eq
        ((CaptureSession.sessions_setObjData hs' m k).trans (if_pos rfl))]
    rw [hdata, WlMap.lookup_insertAt hm, if_pos rfl, hc]
    exact if_pos rfl
  have hnote : ({ r with capture := c } : DmaRun).noteCopy a k id =
      { r with capture := c, copies := r.copies ++ [(d.planes, r.added a)] } := by
    unfold DmaRun.noteCopy
    dsimp only
    rw [hmade]
    dsimp only
    rw [hd]
  rw [hnote]
  refine ⟨hready, hslots', htaken, honce, fun copy hcopy => ?_⟩
  obtain hcopy | hcopy := List.mem_append.mp hcopy
  · exact h.copies copy hcopy
  · obtain rfl := List.mem_singleton.mp hcopy
    rw [hplanes]
    exact hslots.take horder

theorem noteCopy_none {a : Addr} {k id : Nat} (h : (r.capture.objData k).lookup id = none) :
    r.noteCopy a k id = r := by
  unfold DmaRun.noteCopy
  rw [h]
  rfl

theorem Inv.paramsAdd (h : r.Inv) {k : Nat} {env : Env} {sender plane offset stride hi lo : Nat}
    {c : CaptureSession}
    (hallowed : r.capture.Allowed (.message k env (.paramsAdd sender plane offset stride hi lo)))
    (hfresh : r.Fresh (.message k env (.paramsAdd sender plane offset stride hi lo)))
    (horder : r.PlanesInOrder (.message k env (.paramsAdd sender plane offset stride hi lo)))
    (hok : r.capture.perform (.message k env (.paramsAdd sender plane offset stride hi lo)) = .ok c)
    {a : Addr} (ha : (r.capture.objData k).lookup sender = some a) :
    (({ r with capture := c } : DmaRun).noteAdd a env.dup plane offset stride).Inv := by
  have hready := CaptureSession.Ready.perform h.ready hallowed hok
  obtain ⟨s, hs⟩ := Option.isSome_iff_exists.mp hallowed.1
  obtain ⟨hcreated, -⟩ | ⟨c₁, s₁, action, hchanges, hready₁, hs₁, haccepts, hlookup, hhandler⟩ :=
    h.ready.toHandler hs hallowed.2 hok
  · exact absurd rfl hcreated
  · obtain ⟨a', p, ha', hp, hplane, rfl⟩ := CaptureSession.paramsAdd_ok hready₁ hs₁ haccepts hhandler
    obtain ⟨a'', q, ha'', hq, -⟩ := CaptureSession.live_params h.ready hs hallowed.2
    rw [CaptureSession.objData_eq hs] at ha
    obtain rfl : a = a' := Option.some.inj (ha.symm.trans ((hlookup sender).symm.trans ha'))
    obtain rfl : a = a'' := Option.some.inj (ha.symm.trans ha'')
    obtain rfl : p = q := hchanges.params_eq hq hp
    obtain ⟨hempty, hfew⟩ := horder a (by rw [CaptureSession.objData_eq hs]; exact ha) p hq
    exact h.noteAdd hready hchanges hp hplane hempty hfew hfresh

theorem Inv.createImmed (h : r.Inv) {k : Nat} {env : Env} {sender id : Nat} {width height : Int}
    {format : Nat} {c : CaptureSession}
    (hallowed : r.capture.Allowed (.message k env (.createImmed sender id width height format)))
    (horder : r.PlanesInOrder (.message k env (.createImmed sender id width height format)))
    (hok : r.capture.perform (.message k env (.createImmed sender id width height format)) = .ok c)
    {a : Addr} (ha : (r.capture.objData k).lookup sender = some a) :
    (({ r with capture := c } : DmaRun).noteCopy a k id).Inv := by
  have hready := CaptureSession.Ready.perform h.ready hallowed hok
  obtain ⟨s, hs⟩ := Option.isSome_iff_exists.mp hallowed.1
  obtain ⟨-, rfl⟩ | ⟨c₁, s₁, action, hchanges, hready₁, hs₁, haccepts, hlookup, hhandler⟩ :=
    h.ready.toHandler hs hallowed.2 hok
  · rw [noteCopy_none hallowed.2.2.free]
    exact h
  · obtain ⟨a', p, ha', hp, hresult⟩ :=
      CaptureSession.createImmed_ok hready₁ hs₁ haccepts.1 haccepts.2 hhandler
    obtain ⟨a'', q, ha'', hq, -⟩ := CaptureSession.live_params h.ready hs hallowed.2.1
    rw [CaptureSession.objData_eq hs] at ha
    obtain rfl : a = a' := Option.some.inj (ha.symm.trans ((hlookup sender).symm.trans ha'))
    obtain rfl : a = a'' := Option.some.inj (ha.symm.trans ha'')
    obtain rfl : p = q := hchanges.params_eq hq hp
    obtain ⟨-, rfl⟩ | ⟨hmalloc, m, b, d, hm, hd, hplanes, -, hc⟩ := hresult
    · have hnone : (c.objData k).lookup id = none := by
        rw [CaptureSession.objData_eq hs₁]
        exact haccepts.2.free
      rw [noteCopy_none hnone]
      exact h.changes hready hchanges
    · refine h.noteCopy hready hchanges hp hs₁ hm hd hplanes hc ?_
      exact horder a (by rw [CaptureSession.objData_eq hs]; exact ha) p hq hmalloc

theorem Inv.next (h : r.Inv) (hallowed : r.capture.Allowed op) (hfresh : r.Fresh op)
    (horder : r.PlanesInOrder op) (hok : r.next op = .ok r') : r'.Inv := by
  unfold DmaRun.next at hok
  obtain ⟨c, hc, hok⟩ := bind_ok hok
  have hready := CaptureSession.Ready.perform h.ready hallowed hc
  have hquiet (hop : ∀ k env q, op = .message k env q → ¬ q.OfPlanes) :
      ({ r with capture := c } : DmaRun).Inv :=
    h.changes hready (CaptureSession.perform_changes hop hc)
  cases op with
  | message k env q =>
      cases q with
      | paramsAdd sender plane offset stride hi lo =>
          dsimp only at hok
          split at hok
          · next a ha =>
            obtain rfl := Except.ok.inj hok
            exact h.paramsAdd hallowed hfresh horder hc ha
          · next hnone =>
            have hlive : ((r.capture.objData k).lookup sender).isSome := hallowed.2.2
            rw [hnone] at hlive
            cases hlive
      | createImmed sender id width height format =>
          dsimp only at hok
          split at hok
          · next a ha =>
            obtain rfl := Except.ok.inj hok
            exact h.createImmed hallowed horder hc ha
          · next hnone =>
            have hlive : ((r.capture.objData k).lookup sender).isSome := hallowed.2.1.2
            rw [hnone] at hlive
            cases hlive
      | _ =>
          dsimp only at hok
          obtain rfl := Except.ok.inj hok
          exact hquiet (by rintro _ _ _ ⟨⟩; exact id)
  | connect k =>
      dsimp only at hok
      obtain rfl := Except.ok.inj hok
      exact hquiet fun _ _ _ heq => by cases heq
  | disconnect k expired =>
      dsimp only at hok
      obtain rfl := Except.ok.inj hok
      exact hquiet fun _ _ _ heq => by cases heq
  | freeQueued places =>
      dsimp only at hok
      obtain rfl := Except.ok.inj hok
      exact hquiet fun _ _ _ heq => by cases heq

/-- In every run in which planes are added where there is none, at most four to a params object, and
a buffer is only made of planes that are all there, the first of them first. -/
theorem descriptors_owned (width height : Nat) (trace : List Op) (r : DmaRun)
    (hr : (system width height PlanesInOrder).Run trace r) : r.Owned := by
  have hinv : r.Inv := by
    refine hr.always Inv ?_ ?_
    · rintro _ rfl
      exact .start width height
    · rintro r op r' h ⟨⟨hallowed, hfresh⟩, horder, hok⟩
      exact h.next hallowed hfresh horder hok
  exact hinv.owned

open CaptureSession (quiet)

/-- A buffer of one plane, made and destroyed. -/
def onePlane : List Op :=
  [.connect 0, .message 0 quiet (.createParams 2), .message 0 quiet (.paramsAdd 2 0 0 32 0 0),
    .message 0 quiet (.createImmed 2 3 8 8 0), .message 0 quiet (.bufferDestroy 3)]

theorem descriptors_owned_onePlane : ∃ r, (system 8 8 PlanesInOrder).Run onePlane r ∧
    r.dups = [5] ∧ r.capture.closed = [5] ∧ r.copies.length = 1 ∧ r.Owned := by
  have h₀ : (system 8 8 PlanesInOrder).Run [] (start 8 8) := .start rfl
  have h₁ : (system 8 8 PlanesInOrder).Run (onePlane.take 1) _ :=
    h₀.next ⟨⟨rfl, trivial⟩, trivial, rfl⟩
  have h₂ : (system 8 8 PlanesInOrder).Run (onePlane.take 2) _ :=
    h₁.next ⟨⟨⟨rfl, by decide, by decide, rfl⟩, trivial⟩, trivial, rfl⟩
  have h₃ : (system 8 8 PlanesInOrder).Run (onePlane.take 3) _ :=
    h₂.next ⟨⟨⟨rfl, rfl, rfl⟩, by rintro _ ⟨⟩; exact ⟨by decide, Nat.lt_irrefl 0⟩⟩,
      by rintro _ ⟨⟩ _ ⟨⟩; exact ⟨by rintro _ ⟨⟩; decide, .inl (by decide)⟩, rfl⟩
  have h₄ : (system 8 8 PlanesInOrder).Run (onePlane.take 4) _ :=
    h₃.next ⟨⟨⟨rfl, ⟨rfl, rfl⟩, by decide, by decide, rfl⟩, trivial⟩, by
      rintro _ ⟨⟩ _ ⟨⟩ - i plane hplane
      match i, hplane with
      | 0, rfl => decide
      | 1, rfl => decide
      | 2, rfl => decide
      | 3, rfl => decide, rfl⟩
  have h₅ : (system 8 8 PlanesInOrder).Run onePlane _ :=
    h₄.next ⟨⟨⟨rfl, rfl⟩, trivial⟩, trivial, rfl⟩
  exact ⟨_, h₅, rfl, rfl, rfl, descriptors_owned _ _ _ _ h₅⟩

/-- The only plane is added at the index 1; the params object and the buffer are destroyed. -/
def sparse : List Op :=
  [.connect 0, .message 0 quiet (.createParams 2), .message 0 quiet (.paramsAdd 2 1 0 32 0 0),
    .message 0 quiet (.createImmed 2 3 8 8 0), .message 0 quiet (.paramsDestroy 2),
    .message 0 quiet (.bufferDestroy 3)]

/-- Nobody owns the descriptor, and it has not been closed. -/
theorem descriptor_lost : ∃ r, (system 8 8 fun _ _ => True).Run sparse r ∧ r.dups = [5] ∧
    r.capture.closed = [] ∧ r.capture.owners 5 = 0 ∧ ¬ r.Owned := by
  have h₀ : (system 8 8 fun _ _ => True).Run [] (start 8 8) := .start rfl
  have h₁ : (system 8 8 fun _ _ => True).Run (sparse.take 1) _ :=
    h₀.next ⟨⟨rfl, trivial⟩, trivial, rfl⟩
  have h₂ : (system 8 8 fun _ _ => True).Run (sparse.take 2) _ :=
    h₁.next ⟨⟨⟨rfl, by decide, by decide, rfl⟩, trivial⟩, trivial, rfl⟩
  have h₃ : (system 8 8 fun _ _ => True).Run (sparse.take 3) _ :=
    h₂.next ⟨⟨⟨rfl, rfl, rfl⟩, by rintro _ ⟨⟩; exact ⟨by decide, Nat.lt_irrefl 0⟩⟩, trivial, rfl⟩
  have h₄ : (system 8 8 fun _ _ => True).Run (sparse.take 4) _ :=
    h₃.next ⟨⟨⟨rfl, ⟨rfl, rfl⟩, by decide, by decide, rfl⟩, trivial⟩, trivial, rfl⟩
  have h₅ : (system 8 8 fun _ _ => True).Run (sparse.take 5) _ :=
    h₄.next ⟨⟨⟨rfl, rfl, rfl⟩, trivial⟩, trivial, rfl⟩
  have h₆ : (system 8 8 fun _ _ => True).Run sparse _ :=
    h₅.next ⟨⟨⟨rfl, rfl⟩, trivial⟩, trivial, rfl⟩
  refine ⟨_, h₆, rfl, rfl, rfl, fun h => ?_⟩
  exact absurd (h.owners 5) (by decide)

end DmaRun

end Stratus.Capture
