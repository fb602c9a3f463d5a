import Stratus.Capture.Changes
import Stratus.Capture.LifeCycleRuns

/-! The two requests about the planes of a params object, and how the module comes to the handler of
a request. -/
namespace Stratus.Capture

open Stratus.Lib Proxy

/-- The planes have been handed over to a buffer. -/
def Params.handOver (p : Params) : Params :=
  { p with planes := p.planes.map fun plane => { plane with fd := -1 } }

/-- A plane has been added, or `dup` has failed. -/
def Params.add (p : Params) (dup : Option Int) (plane offset stride modifier : Nat) : Params :=
  match dup with
  | none =>
      let old := p.planes.getD plane { fd := -1, offset := 0, stride := 0 }
      { p with planes := p.planes.set plane { old with fd := -1 } }
  | some fd =>
      { p with
        planes := p.planes.set plane { fd := fd, offset := offset, stride := stride }
        numPlanes := p.numPlanes + 1
        modifier := modifier }

namespace CaptureSession

variable {c c' : CaptureSession} {k sender id : Nat} {s : Session Addr} {env : Env} {r : Request}
  {action : Action}

/-- Up to the handler of a request: the module is ready, and the ids that were in use stand for the
objects that they stood for. -/
theorem Ready.toHandler (h : c.Ready) (hs : c.sessions k = some s) (hr : c.Conforms k r)
    (hok : c.proxyMessage k env r = .ok c') :
    (r.created ≠ none ∧ c' = c) ∨ ∃ c₁ s₁ action, Changes (Op.message k env r).Makes c c₁ ∧ c₁.Ready ∧
      c₁.sessions k = some s₁ ∧ c₁.Accepts k s₁ r ∧ (∀ x, s₁.objData.lookup x = s.objData.lookup x) ∧
      c₁.handler k env r = .ok (c', action) := by
  have hmessage {c₀ : CaptureSession} {s₀ : Session Addr} (h₀ : Changes (Op.message k env r).Makes c c₀)
      (hready : c₀.Ready) (hs₀ : c₀.sessions k = some s₀) (haccepts : c₀.Accepts k s₀ r)
      (hlookup : ∀ x, s₀.objData.lookup x = s.objData.lookup x)
      (hok : Prod.fst <$> c₀.handleMessage k env r = .ok c') :
      ∃ c₁ s₁ action, Changes (Op.message k env r).Makes c c₁ ∧ c₁.Ready ∧ c₁.sessions k = some s₁ ∧
        c₁.Accepts k s₁ r ∧ (∀ x, s₁.objData.lookup x = s.objData.lookup x) ∧
        c₁.handler k env r = .ok (c', action) := by
    obtain ⟨c₁, hc₁, hready₁, hkeep⟩ := hready.freeFrames env.expired
    have hchanges : Changes (Op.message k env r).Makes c c₁ := h₀.trans (freeFrames_changes c₀ _ c₁ hc₁)
    cases hresult : c₁.handler k env r with
    | error fault =>
        rw [handleMessage, hc₁] at hok
        change Prod.fst <$> c₁.handler k env r = .ok c' at hok
        rw [hresult] at hok
        cases hok
    | ok result =>
        rw [handleMessage, hc₁] at hok
        change Prod.fst <$> c₁.handler k env r = .ok c' at hok
        rw [hresult] at hok
        obtain rfl := Except.ok.inj hok
        exact ⟨c₁, s₀, result.2, hchanges, hready₁, by rw [hkeep.sessions, hs₀],
          haccepts.congr hkeep.sessions, hlookup, hresult⟩
  unfold proxyMessage at hok
  simp only [hs] at hok
  split at hok
  · next hnone => exact .inr (hmessage .refl h hs (hr.accepts hnone) (fun _ => rfl) hok)
  · next id i hcreated =>
    split at hok
    · exact .inl ⟨by rw [hcreated]; exact nofun, (Except.ok.inj hok).symm⟩
    · next s' hs' =>
      obtain ⟨haccepts, hfree⟩ := Conforms.created hs hr hcreated hs'
      refine .inr (hmessage (.setSession c k _) (Ready.created hs' h hs hfree) (if_pos rfl) haccepts
        (fun x => ?_) hok)
      rw [WlMap.lookup_insertAt (proxyCreateObject_maps hs').2]
      split
      · next hx => rw [hx, hfree]
      · rfl

theorem paramsAdd_ok (h : c.Ready) (hs : c.sessions k = some s)
    (hlive : c.Live k sender .zwpLinuxBufferParamsV1) {plane offset stride hi lo : Nat}
    (hok : c.zwpLinuxBufferParamsAdd k env sender plane offset stride hi lo = .ok (c', action)) :
    ∃ a p, s.objData.lookup sender = some a ∧ c.heap.objs a = some (.params p) ∧ plane < 4 ∧
      c' = c.write a (.params (p.add env.dup plane offset stride (hi * 2 ^ 32 + lo))) := by
  obtain ⟨a, p, ha, hp, -⟩ := live_params h hs hlive
  refine ⟨a, p, ha, hp, ?_⟩
  unfold zwpLinuxBufferParamsAdd at hok
  simp only [objData_eq hs, ha, readParams_eq hp, bind, Except.bind] at hok
  split at hok
  · next hplane =>
    refine ⟨hplane, ?_⟩
    cases hdup : env.dup with
    | none =>
        rw [hdup] at hok
        exact (Prod.mk.inj (Except.ok.inj hok)).1.symm
    | some fd =>
        rw [hdup] at hok
        exact (Prod.mk.inj (Except.ok.inj hok)).1.symm
  · cases hok

theorem createImmed_ok (h : c.Ready) (hs : c.sessions k = some s)
    (hlive : c.Live k sender .zwpLinuxBufferParamsV1) (hid : Reserved s id .wlBuffer)
    {width height : Int} {format : Nat}
    (hok : c.zwpLinuxBufferParamsCreateImmed k env sender id width height format = .ok (c', action)) :
    ∃ a p, s.objData.lookup sender = some a ∧ c.heap.objs a = some (.params p) ∧
      (env.malloc = false ∧ c' = c ∨ env.malloc = true ∧ ∃ m b d,
        s.objData.insertAt id (some c.heap.next) = some m ∧
        b.dmaBuf = some d ∧ d.planes = p.planes.take p.numPlanes ∧
        (b.shmBuf = none ∧ d.width = b.width ∧ d.height = b.height) ∧
        c' = ((c.write a (.params p.handOver)).alloc k (.buffer b)).setObjData k m) := by
  obtain ⟨a, p, ha, hp, -⟩ := live_params h hs hlive
  refine ⟨a, p, ha, hp, ?_⟩
  unfold zwpLinuxBufferParamsCreateImmed at hok
  simp only [objData_eq hs, ha, readParams_eq hp, bind, Except.bind] at hok
  cases hmalloc : env.malloc with
  | false =>
      rw [hmalloc] at hok
      exact .inl ⟨rfl, (Prod.mk.inj (Except.ok.inj hok)).1.symm⟩
  | true =>
      rw [hmalloc] at hok
      simp only [Bool.not_true, Bool.false_eq_true, if_false] at hok
      split at hok
      · -- the id has been entered, so that there is room for the buffer
        obtain ⟨m, hm⟩ := hid.room (some c.heap.next)
        have hdata : (c.write a (.params p.handOver)).objData k = s.objData := objData_eq hs
        change (c.write a (.params p.handOver)).register k id _ = _ at hok
        have hnext : (c.write a (.params p.handOver)).heap.next = c.heap.next := rfl
        unfold register at hok
        rw [hdata, hid.free] at hok
        dsimp only at hok
        rw [hnext, hm] at hok
        exact .inr ⟨rfl, m, _, _, hm, rfl, rfl, ⟨rfl, rfl, rfl⟩, (Prod.mk.inj (Except.ok.inj hok)).1.symm⟩
      · cases hok

theorem Ready.perform {op : Op} (h : c.Ready) (hop : c.Allowed op)
    (hok : c.perform op = .ok c') : c'.Ready := by
  obtain herror | ⟨c₁, hc₁, hready⟩ := perform_steps h hop
  · rw [hok] at herror
    cases herror
  · rw [hok] at hc₁
    rwa [Except.ok.inj hc₁]

/-- An object has the same planes as long as it is there. -/
theorem Changes.params_eq {made : CaptureSession → Obj → Prop} {c₁ : CaptureSession}
    (h : Changes made c c₁) {a : Addr} {p q : Params}
    (hq : c.heap.objs a = some (.params q)) (hp : c₁.heap.objs a = some (.params p)) : p = q :=
  Obj.params.inj (h.body hq hp)

end CaptureSession

end Stratus.Capture
