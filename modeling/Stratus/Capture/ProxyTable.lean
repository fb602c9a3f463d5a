import Stratus.Capture.ProxyMessage

/-! The interface table against the protocol.  Every object that a message creates
gets the interface of the message's first argument; all messages but one have their
new object there. -/
namespace Stratus.Capture.Proxy

open Stratus.Lib

variable {δ : Type} {handler : Handler δ} {objects : Objects} {m : Incoming} {s s' : Session δ}

/-! ### The declarations -/

/-- Every new object of the message has the interface of the first argument. -/
def Message.firstTyped (message : Message) : Bool :=
  message.signature.all fun arg =>
    match arg with
    | .newId none => false
    | .newId (some interface) => message.types.headD none = some interface
    | _ => true

theorem name_eq_wl_registry (i : Interface) : i.name = "wl_registry" ↔ i = .wlRegistry := by
  cases i <;> simp [Interface.name]

theorem messages_all_firstTyped (i : Interface) (side : Side) :
    (i.messages side).zipIdx.all fun x =>
      x.1.firstTyped || (i = .wlRegistry && side = .client && x.2 = 0) ||
        (i = .wpPresentation && side = .client && x.2 = 1) := by
  cases side <;> cases i <;> decide

theorem messages_firstTyped {i : Interface} {side : Side} {k : Nat} {message : Message}
    (h : (i.messages side)[k]? = some message) :
    message.firstTyped ∨ (i = .wlRegistry ∧ side = .client ∧ k = 0) ∨
      (i = .wpPresentation ∧ side = .client ∧ k = 1) := by
  have hall := List.all_eq_true.mp (messages_all_firstTyped i side) (message, k)
    (List.mem_zipIdx_iff_getElem?.mpr h)
  simpa [or_assoc, and_assoc] using hall

theorem lookup_name (i : Interface) : proxyLookupInterface i.name = some i := by
  cases i <;> decide

theorem name_of_lookup {name : String} {i : Interface} (h : proxyLookupInterface name = some i) :
    i.name = name := by
  simpa using List.find?_some h

theorem registry_bind {side : Side} {k : Nat} {message : Message}
    (h : (Interface.wlRegistry.messages side)[k]? = some message) (hname : message.name = "bind") :
    side = .client ∧ k = 0 := by
  have hall : (Interface.wlRegistry.messages side).zipIdx.all fun x =>
      x.1.name != "bind" || (side = .client && x.2 = 0) := by
    cases side <;> decide
  have hmem := List.all_eq_true.mp hall (message, k) (List.mem_zipIdx_iff_getElem?.mpr h)
  simpa [hname] using hmem

theorem registry_global {side : Side} {k : Nat} {message : Message}
    (h : (Interface.wlRegistry.messages side)[k]? = some message) (hname : message.name = "global") :
    message.signature = [.uint, .string false, .uint] := by
  have hall : (Interface.wlRegistry.messages side).all fun x =>
      x.name != "global" || x.signature = [.uint, .string false, .uint] := by
    cases side <;> decide
  have hmem := List.all_eq_true.mp hall message (List.mem_of_getElem? h)
  simpa [hname] using hmem

/-! ### The table after a message -/

theorem lookup_createObject {id : Nat} {interface : Option Interface}
    (h : proxyCreateObject s id interface = .ok s') (j : Nat) :
    s'.objTypes.lookup j = if j = id then interface else s.objTypes.lookup j := by
  unfold proxyCreateObject at h
  split at h
  · cases h
  · next types htypes =>
    split at h
    · cases h
    · cases h
      exact WlMap.lookup_insertAt htypes j

theorem lookup_createObjects {ids : List Nat} {interface : Option Interface}
    (h : createObjects interface ids s = .ok s') (j : Nat) :
    s'.objTypes.lookup j = if j ∈ ids then interface else s.objTypes.lookup j := by
  induction ids generalizing s with
  | nil =>
      cases h
      simp
  | cons id rest ih =>
      simp only [createObjects, bind, Except.bind] at h
      split at h
      · cases h
      · next s₁ hs₁ =>
        rw [ih h, lookup_createObject hs₁]
        by_cases hj : j = id <;> simp [hj]

theorem lookup_demarshal {types types' : WlMap Interface} {message : Message} {args : List Arg}
    (h : demarshal types message args = .ok types') (j : Nat) :
    types'.lookup j = types.lookup j := by
  unfold demarshal at h
  split at h
  · cases h
    induction newIds message.signature args generalizing types with
    | nil => rfl
    | cons id rest ih => rw [List.foldl_cons, ih, WlMap.lookup_reserveNew]
  · cases h

theorem dispatch_objTypes {closure : Closure} {newObjects : Bool}
    (h : dispatch handler s closure newObjects = .ok s') : s'.objTypes = s.objTypes := by
  unfold dispatch at h
  dsimp only at h
  split at h
  · cases h
  · split at h <;> cases h
    rfl
  · split at h <;> cases h
    rfl

/-- What a handled message did to the table: the name in a `bind` request decides, or
else the first argument. -/
theorem handled_lookup {interface : Interface} {message : Message}
    (hinterface : s.objTypes.lookup m.id = some interface)
    (hmessage : (interface.messages m.side)[m.opcode]? = some message)
    (h : proxyHandleMessage handler s m = .ok s') (j : Nat) :
    if interface = .wlRegistry ∧ message.name = "bind" then
      ∃ named, proxyLookupInterface (Closure.stringArg ⟨interface, message, m.args⟩ 1) = some named ∧
        s'.objTypes.lookup j = if j = Closure.idArg ⟨interface, message, m.args⟩ 3 then some named
          else s.objTypes.lookup j
    else s'.objTypes.lookup j =
      if j ∈ newIds message.signature m.args then message.types.headD none
      else s.objTypes.lookup j := by
  unfold proxyHandleMessage at h
  rw [hinterface] at h
  simp only [hmessage, bind, Except.bind] at h
  split at h
  · cases h
  · next types htypes =>
    have htable := lookup_demarshal htypes
    split at h
    · next hglobal =>
      cases h
      obtain ⟨hname, hmname, _⟩ := hglobal
      obtain rfl := (name_eq_wl_registry interface).mp hname
      rw [if_neg (by simp [hmname]), registry_global hmessage hmname]
      have hnil : newIds [.uint, .string false, .uint] m.args = [] := by
        unfold newIds
        rcases m.args with _ | ⟨a, _ | ⟨b, _ | ⟨c, rest⟩⟩⟩ <;> simp
      simp [hnil, htable]
    · split at h
      · cases h
      · next registered hregistered =>
        rw [dispatch_objTypes h]
        unfold registerObjects at hregistered
        simp only [name_eq_wl_registry] at hregistered
        split at hregistered
        · next hbind =>
          rw [if_pos hbind]
          split at hregistered
          · cases hregistered
          · next named hnamed =>
            simp only [bind, Except.bind] at hregistered
            split at hregistered
            · cases hregistered
            · next s₁ hs₁ =>
              cases hregistered
              exact ⟨named, hnamed, by rw [lookup_createObject hs₁, htable]⟩
        · next hbind =>
          rw [if_neg hbind]
          simp only [bind, Except.bind] at hregistered
          split at hregistered
          · cases hregistered
          · next s₁ hs₁ =>
            cases hregistered
            rw [lookup_createObjects hs₁, htable]

theorem mem_newIds {signature : List ArgDecl} {args : List Arg} {id : Nat} :
    id ∈ newIds signature args ↔
      ∃ (k : Nat) (i : Option Interface), signature[k]? = some (.newId i) ∧
        args[k]? = some (Arg.newId id) := by
  unfold newIds
  rw [List.mem_filterMap]
  constructor
  · rintro ⟨⟨decl, arg⟩, hmem, hsome⟩
    split at hsome
    · next heq =>
      cases heq
      cases hsome
      obtain ⟨k, hk⟩ := List.mem_iff_getElem?.mp hmem
      rw [List.getElem?_zip_eq_some] at hk
      exact ⟨k, _, hk⟩
    · cases hsome
  · rintro ⟨k, i, hdecl, harg⟩
    refine ⟨(.newId i, .newId id), ?_, rfl⟩
    exact List.mem_iff_getElem?.mpr ⟨k, List.getElem?_zip_eq_some.mpr ⟨hdecl, harg⟩⟩

theorem Message.firstTyped_at {message : Message} (h : message.firstTyped) {k : Nat}
    {i : Option Interface} (hk : message.signature[k]? = some (.newId i)) :
    ∃ interface, i = some interface ∧ message.types.headD none = some interface := by
  have hmem := List.all_eq_true.mp h _ (List.mem_of_getElem? hk)
  cases i with
  | none => simp at hmem
  | some interface => exact ⟨interface, rfl, by simpa using hmem⟩

theorem declaration_eq_some {interface : Interface} {message : Message} :
    objects.declaration m = some (interface, message) ↔
      objects m.id = some interface ∧ (interface.messages m.side)[m.opcode]? = some message := by
  unfold Objects.declaration
  constructor
  · intro h
    obtain ⟨i, hi, h⟩ := Option.bind_eq_some_iff.mp h
    obtain ⟨d, hd, h⟩ := Option.bind_eq_some_iff.mp h
    cases h
    exact ⟨hi, hd⟩
  · rintro ⟨hi, hd⟩
    simp [hi, hd]

/-- A message whose new objects have the interface of the first argument. -/
theorem mirrors_of_firstTyped {interface : Interface} {message : Message}
    (hmirror : ∀ id, s.objTypes.lookup id = objects id)
    (hdecl : objects.declaration m = some (interface, message)) (hfirst : message.firstTyped)
    (h : proxyHandleMessage handler s m = .ok s') : Mirrors objects m s s' := by
  obtain ⟨hinterface, hmessage⟩ := declaration_eq_some.mp hdecl
  have hnotbind : ¬ (interface = .wlRegistry ∧ message.name = "bind") := by
    rintro ⟨rfl, hname⟩
    obtain ⟨hside, hopcode⟩ := registry_bind hmessage hname
    rw [hside, hopcode] at hmessage
    cases hmessage
    exact absurd hfirst (by decide)
  have hlookup (j : Nat) := handled_lookup ((hmirror m.id).trans hinterface) hmessage h j
  simp only [if_neg hnotbind] at hlookup
  constructor
  · rintro id i ⟨sender, message', hdecl', hintro⟩
    rw [hdecl] at hdecl'
    cases hdecl'
    rcases hintro with ⟨hsender, hname, _⟩ | ⟨k, hk, harg⟩
    · exact absurd ⟨hsender, hname⟩ hnotbind
    · obtain ⟨interface', hsome, hhead⟩ := Message.firstTyped_at hfirst hk
      cases hsome
      rw [hlookup, if_pos (mem_newIds.mpr ⟨k, _, hk, harg⟩), hhead]
  · intro id hnone
    rw [hlookup, if_neg]
    intro hmem
    obtain ⟨k, i, hk, harg⟩ := mem_newIds.mp hmem
    obtain ⟨interface', rfl, _⟩ := Message.firstTyped_at hfirst hk
    exact hnone interface' ⟨interface, message, hdecl, .inr ⟨k, hk, harg⟩⟩

theorem bind_args {args : List Arg}
    (hlength : args.length = (Message.mk "bind" [.uint, .newId none]).signature.length)
    (hargs : ((Message.mk "bind" [.uint, .newId none]).signature.zip args).all
      fun pair => pair.1.accepts pair.2) :
    ∃ name version value id, args = [.word name, .string (some value), .word version, .newId id] := by
  obtain ⟨a, b, c, d, rfl⟩ : ∃ a b c d, args = [a, b, c, d] := by
    match args, hlength with
    | [a, b, c, d], _ => exact ⟨a, b, c, d, rfl⟩
  have haccepts : ArgDecl.uint.accepts a ∧ (ArgDecl.string false).accepts b ∧
      ArgDecl.uint.accepts c ∧ (ArgDecl.newId none).accepts d := by
    simpa [Message.signature] using hargs
  obtain ⟨ha, hb, hc, hd⟩ := haccepts
  cases a <;> cases ha
  cases c <;> cases hc
  cases d <;> simp [ArgDecl.accepts] at hd
  cases b with
  | string value =>
      cases value with
      | none => cases hb
      | some value => exact ⟨_, _, value, _, rfl⟩
  | _ => cases hb

theorem mirrors_of_bind {message : Message} (hmirror : ∀ id, s.objTypes.lookup id = objects id)
    (hdecl : objects.declaration m = some (.wlRegistry, message)) (hside : m.side = .client)
    (hopcode : m.opcode = 0) (hwf : WellFormedMessage objects m)
    (h : proxyHandleMessage handler s m = .ok s') : Mirrors objects m s s' := by
  obtain ⟨hinterface, hmessage⟩ := declaration_eq_some.mp hdecl
  have hlookup (j : Nat) := handled_lookup ((hmirror m.id).trans hinterface) hmessage h j
  rw [hside, hopcode] at hmessage
  cases hmessage
  obtain ⟨_, _, hdecl', hlength, hargs⟩ := hwf
  rw [hdecl] at hdecl'
  cases hdecl'
  obtain ⟨name, version, value, id₀, hargs_eq⟩ := bind_args hlength hargs
  simp only [and_self, if_true, hargs_eq, Closure.stringArg, Closure.idArg, List.getElem?_cons_succ,
    List.getElem?_cons_zero] at hlookup
  -- no argument is announced with an interface, so only the name counts
  have hintro {id : Nat} {i : Interface} :
      Introduces objects m id i ↔ id = id₀ ∧ i.name = value := by
    constructor
    · rintro ⟨_, _, hdecl', ⟨-, -, hid, hname⟩ | ⟨k, hk, -⟩⟩
      · rw [hargs_eq] at hid hname
        simp only [List.getElem?_cons_succ, List.getElem?_cons_zero, Option.some.injEq,
          Arg.newId.injEq, Arg.string.injEq] at hid hname
        exact ⟨hid.symm, hname.symm⟩
      · rw [hdecl] at hdecl'
        cases hdecl'
        have hmem := List.mem_of_getElem? hk
        simp [Message.signature] at hmem
    · rintro ⟨rfl, rfl⟩
      exact ⟨_, _, hdecl, .inl ⟨rfl, rfl, by rw [hargs_eq]; rfl, by rw [hargs_eq]; rfl⟩⟩
  constructor
  · intro id i hid
    obtain ⟨rfl, rfl⟩ := hintro.mp hid
    obtain ⟨named, hnamed, hid'⟩ := hlookup id
    rw [lookup_name] at hnamed
    cases hnamed
    rw [hid', if_pos rfl]
  · intro id hnone
    obtain ⟨named, hnamed, hid'⟩ := hlookup id
    rw [hid', if_neg]
    rintro rfl
    exact hnone named (hintro.mpr ⟨rfl, name_of_lookup hnamed⟩)

/-- The object of `wp_presentation.feedback` is entered as a surface. -/
theorem not_mirrors_of_feedback (hmirror : ∀ id, s.objTypes.lookup id = objects id)
    (hfeedback : IsFeedback objects m) (hwf : WellFormedMessage objects m)
    (h : proxyHandleMessage handler s m = .ok s') : ¬ Mirrors objects m s s' := by
  obtain ⟨hinterface, hside, hopcode⟩ := hfeedback
  obtain ⟨interface, message, hdecl, hlength, hargs⟩ := hwf
  obtain ⟨hinterface', hmessage⟩ := declaration_eq_some.mp hdecl
  rw [hinterface] at hinterface'
  cases hinterface'
  have hlookup (j : Nat) := handled_lookup ((hmirror m.id).trans hinterface) hmessage h j
  rw [hside, hopcode] at hmessage
  cases hmessage
  simp only [if_neg (show ¬ (Interface.wpPresentation = .wlRegistry ∧ "feedback" = "bind") by decide)]
    at hlookup
  obtain ⟨surface, id, hargs_eq⟩ : ∃ surface id, m.args = [surface, .newId id] := by
    obtain ⟨a, b, hab⟩ : ∃ a b, m.args = [a, b] := by
      match m.args, hlength with
      | [a, b], _ => exact ⟨a, b, rfl⟩
    rw [hab] at hargs
    have hb : (ArgDecl.newId (some .wpPresentationFeedback)).accepts b := by
      have haccepts : (ArgDecl.object (some .wlSurface) false).accepts a ∧
          (ArgDecl.newId (some .wpPresentationFeedback)).accepts b := by
        simpa [Message.signature] using hargs
      exact haccepts.2
    cases b <;> simp [ArgDecl.accepts] at hb
    exact ⟨a, _, hab⟩
  intro hmirrors
  have hintro : Introduces objects m id .wpPresentationFeedback :=
    ⟨_, _, hdecl, .inr ⟨1, rfl, by rw [hargs_eq]; rfl⟩⟩
  have htable := hmirrors.introduced id _ hintro
  have hmem : id ∈ newIds (Message.mk "feedback"
      [.object (some .wlSurface) false, .newId (some .wpPresentationFeedback)]).signature m.args :=
    mem_newIds.mpr ⟨1, _, rfl, by rw [hargs_eq]; rfl⟩
  rw [hlookup, if_pos hmem] at htable
  cases htable

theorem mirrors_iff (hmirror : ∀ id, s.objTypes.lookup id = objects id)
    (hwf : WellFormedMessage objects m) (h : proxyHandleMessage handler s m = .ok s') :
    Mirrors objects m s s' ↔ ¬ IsFeedback objects m := by
  constructor
  · intro hmirrors hfeedback
    exact not_mirrors_of_feedback hmirror hfeedback hwf h hmirrors
  · intro hnot
    obtain ⟨interface, message, hdecl, -⟩ := id hwf
    obtain ⟨hinterface, hmessage⟩ := declaration_eq_some.mp hdecl
    rcases messages_firstTyped hmessage with hfirst | ⟨rfl, hside, hopcode⟩ | ⟨rfl, hside, hopcode⟩
    · exact mirrors_of_firstTyped hmirror hdecl hfirst h
    · exact mirrors_of_bind hmirror hdecl hside hopcode hwf h
    · exact absurd ⟨hinterface, hside, hopcode⟩ hnot

theorem Mirrors.lookup_eq {objects' : Objects} (h : Mirrors objects m s s')
    (hmirror : ∀ id, s.objTypes.lookup id = objects id) (hfollows : Follows objects m objects')
    (id : Nat) : s'.objTypes.lookup id = objects' id := by
  by_cases hintro : ∃ interface, Introduces objects m id interface
  · obtain ⟨interface, hintro⟩ := hintro
    rw [h.introduced id interface hintro, hfollows.introduced id interface hintro]
  · have hnone : ∀ interface, ¬ Introduces objects m id interface := fun i hi => hintro ⟨i, hi⟩
    rw [h.others id hnone, hfollows.others id hnone, hmirror]

theorem lookup_create (id : Nat) : (Session.create δ).objTypes.lookup id = Objects.start id := by
  unfold WlMap.lookup Objects.start Session.create
  match id with
  | 0 => rfl
  | 1 => rfl
  | id + 2 =>
      rw [if_neg (show ¬ id + 2 = 1 by omega)]
      split <;> simp

/-- As long as no `wp_presentation.feedback` has been handled the table agrees with
the protocol, and the next message keeps it so exactly when it is not one either. -/
theorem table_mirrors_unless_feedback {x : Objects × Session δ}
    (hx : (tableSystem handler fun objects m => ¬ IsFeedback objects m).Reachable x) :
    (∀ id, x.2.objTypes.lookup id = x.1 id) ∧
      ∀ m s', WellFormedMessage x.1 m → proxyHandleMessage handler x.2 m = .ok s' →
        (Mirrors x.1 m x.2 s' ↔ ¬ IsFeedback x.1 m) := by
  have hmirror : ∀ id, x.2.objTypes.lookup id = x.1 id := by
    refine hx.invariant (fun x => ∀ id, x.2.objTypes.lookup id = x.1 id) ?_ ?_
    · rintro _ rfl id
      exact lookup_create id
    · rintro ⟨objects, s⟩ ⟨objects', s'⟩ ih ⟨m, hwf, hnot, hfollows, h⟩ id
      exact ((mirrors_iff ih hwf h).mpr hnot).lookup_eq ih hfollows id
  exact ⟨hmirror, fun m s' hwf h => mirrors_iff hmirror hwf h⟩

/-! ### A run -/

theorem wellFormed_of_handled (hmirror : ∀ id, s.objTypes.lookup id = objects id)
    (h : proxyHandleMessage handler s m = .ok s') : WellFormedMessage objects m := by
  unfold proxyHandleMessage at h
  split at h
  · cases h
  · next interface hinterface =>
    split at h
    · cases h
    · next message hmessage =>
      simp only [bind, Except.bind] at h
      split at h
      · cases h
      · next types htypes =>
        unfold demarshal at htypes
        split at htypes
        · next hargs =>
          exact ⟨interface, message,
            declaration_eq_some.mpr ⟨hmirror m.id ▸ hinterface, hmessage⟩, hargs⟩
        · cases htypes

/-- A handled message as a step, with what the protocol says taken from the table. -/
theorem reachable_of_handled {allowed : Objects → Incoming → Prop}
    (hs : (tableSystem handler allowed).Reachable (s.objTypes.lookup, s))
    (hallowed : allowed s.objTypes.lookup m) (hnot : ¬ IsFeedback s.objTypes.lookup m)
    (h : proxyHandleMessage handler s m = .ok s') :
    (tableSystem handler allowed).Reachable (s'.objTypes.lookup, s') := by
  have hwf : WellFormedMessage s.objTypes.lookup m := wellFormed_of_handled (fun _ => rfl) h
  have hmirrors := (mirrors_iff (fun _ => rfl) hwf h).mpr hnot
  exact .next hs ⟨m, hwf, hallowed, ⟨hmirrors.introduced, hmirrors.others⟩, h⟩

/-- A handler that passes everything on. -/
def passOn : Handler Unit where
  onMessage data _ := (data, .forward)
  send _ := true

/-- The session after a client got the registry, bound the presentation and compositor
globals and created a surface. -/
def surfaceSession : Session Unit where
  objTypes :=
    { client := [none, some .wlDisplay, some .wlRegistry, some .wpPresentation,
        some .wlCompositor, some .wlSurface]
      server := [] }
  objData := { client := List.replicate 6 none, server := [] }

theorem surfaceSession_reachable {allowed : Objects → Incoming → Prop}
    (hallowed : ∀ objects m, ¬ IsFeedback objects m → allowed objects m) :
    (tableSystem passOn allowed).Reachable
      (surfaceSession.objTypes.lookup, surfaceSession) := by
  have step {s s' : Session Unit} {m : Incoming}
      (hs : (tableSystem passOn allowed).Reachable (s.objTypes.lookup, s))
      (hnot : ¬ IsFeedback s.objTypes.lookup m) (h : proxyHandleMessage passOn s m = .ok s') :
      (tableSystem passOn allowed).Reachable (s'.objTypes.lookup, s') :=
    reachable_of_handled hs (hallowed _ _ hnot) hnot h
  have hstart : (tableSystem passOn allowed).Reachable
      ((Session.create Unit).objTypes.lookup, Session.create Unit) :=
    .start (Prod.ext (funext lookup_create) rfl)
  have hregistry := step (m := ⟨.client, 1, 1, [.newId 2]⟩) hstart
    (by unfold IsFeedback; decide) rfl
  have hpresentation := step
    (m := ⟨.client, 2, 0, [.word 9, .string (some "wp_presentation"), .word 1, .newId 3]⟩)
    hregistry (by unfold IsFeedback; decide) rfl
  have hcompositor := step
    (m := ⟨.client, 2, 0, [.word 1, .string (some "wl_compositor"), .word 4, .newId 4]⟩)
    hpresentation (by unfold IsFeedback; decide) rfl
  exact step (m := ⟨.client, 4, 0, [.newId 5]⟩) hcompositor (by unfold IsFeedback; decide) rfl

theorem table_mirrors_unless_feedback_surface :
    ∃ s', proxyHandleMessage passOn surfaceSession ⟨.client, 4, 1, [.newId 6]⟩ = .ok s' ∧
      Mirrors surfaceSession.objTypes.lookup ⟨.client, 4, 1, [.newId 6]⟩ surfaceSession s' := by
  obtain ⟨s', hs'⟩ : ∃ s', proxyHandleMessage passOn surfaceSession
      ⟨.client, 4, 1, [.newId 6]⟩ = .ok s' := ⟨_, rfl⟩
  have hx : (tableSystem passOn fun objects m => ¬ IsFeedback objects m).Reachable
      (surfaceSession.objTypes.lookup, surfaceSession) :=
    surfaceSession_reachable fun _ _ hnot => hnot
  refine ⟨s', hs', ((table_mirrors_unless_feedback hx).2 _ _ ?_ hs').mpr ?_⟩
  · exact wellFormed_of_handled (fun _ => rfl) hs'
  · unfold IsFeedback
    decide

/-- `wp_presentation.feedback` for the surface, with the new id 6. -/
def feedbackRequest : Incoming := ⟨.client, 3, 1, [.object 5, .newId 6]⟩

theorem feedback_not_mirrored :
    ∃ (x : Objects × Session Unit) (s' : Session Unit),
      (tableSystem passOn fun _ _ => True).Reachable x ∧ WellFormedMessage x.1 feedbackRequest ∧
      proxyHandleMessage passOn x.2 feedbackRequest = .ok s' ∧
      ¬ Mirrors x.1 feedbackRequest x.2 s' := by
  refine ⟨(surfaceSession.objTypes.lookup, surfaceSession), _,
    surfaceSession_reachable (fun _ _ _ => trivial), ?_, rfl, ?_⟩
  · exact wellFormed_of_handled (fun _ => rfl)
      (show proxyHandleMessage passOn surfaceSession feedbackRequest = .ok _ from rfl)
  · intro hmirrors
    have hintro : Introduces surfaceSession.objTypes.lookup feedbackRequest 6
        .wpPresentationFeedback := ⟨.wpPresentation, _, rfl, .inr ⟨1, rfl, rfl⟩⟩
    -- the table says that object 6 is a surface
    have htable := hmirrors.introduced 6 _ hintro
    cases htable

end Stratus.Capture.Proxy
