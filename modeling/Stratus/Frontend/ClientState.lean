import Stratus.Frontend.GamepadIndexes

/-! What has been sent when the loop of `inputStream.ts` has gone through all gamepads, with buttons
on the screen that are pressed and let go at any time. -/
namespace Stratus.Frontend

open Stratus.Lib GamepadIndexes

namespace ClientState

/-- `polled` are the gamepads that the loop goes through, `made` are the manual buttons from which it
has made the state for the first index, and it is `complete` after its last write. -/
structure Client where
  loop : GamepadIndexes.State
  manualButtonIndices : List Nat
  polled : List Gamepad
  made : List Nat
  complete : Bool

/-- What happens next; `finish` is when the loop asks to be called again. -/
inductive Event where
  | setManualButton (buttonIndex : Nat) (isPressed : Bool)
  | poll (gamepads : List (Option Gamepad))
  | work
  | finish
  | dispose

def setManualButton (manualButtonIndices : List Nat) (buttonIndex : Nat) (isPressed : Bool) : List Nat :=
  if isPressed then manualButtonIndices.insert buttonIndex
  else manualButtonIndices.filter fun pressed => pressed ≠ buttonIndex

namespace Client

def start : Client where
  loop := .start
  manualButtonIndices := []
  polled := []
  made := []
  complete := false

/-- The state that is made next is that for the first index. -/
def MakesFirst (c : Client) : Prop :=
  match c.loop.phase with
  | .assigning _ (gamepad :: _) => (c.loop.track gamepad.index).1 = 0
  | .assigning gamepads [] => gamepads = []
  | _ => False

/-- Nothing is left to be done after this. -/
def AtEnd (c : Client) : Prop :=
  match c.loop.phase with
  | .assigning _ [] => True
  | _ => False

instance (c : Client) : Decidable c.MakesFirst := by
  unfold MakesFirst
  split
  · exact inferInstanceAs (Decidable (_ = _))
  · next gamepads _ => exact decidable_of_iff (gamepads.isEmpty = true) List.isEmpty_iff
  · exact instDecidableFalse

instance (c : Client) : Decidable c.AtEnd := by
  unfold AtEnd
  split
  · exact instDecidableTrue
  · exact instDecidableFalse

/-- `none` where the step cannot be taken; a browser gives each gamepad an index of its own. -/
def next (c : Client) : Event → Option Client
  | .setManualButton buttonIndex isPressed =>
      some { c with
        manualButtonIndices := setManualButton c.manualButtonIndices buttonIndex isPressed }
  | .poll gamepads =>
      if c.complete then none
      else if ((getConnectedGamepads gamepads).map Gamepad.index).Nodup then
        (c.loop.next (.poll gamepads)).map fun loop =>
          { c with loop := loop, polled := getConnectedGamepads gamepads }
      else none
  | .work =>
      (c.loop.next (.work c.manualButtonIndices)).map fun loop =>
        { c with
          loop := loop
          made := if c.MakesFirst then c.manualButtonIndices else c.made
          complete := decide c.AtEnd }
  | .finish => if c.complete then some { c with complete := false } else none
  | .dispose => (c.loop.next .dispose).map fun loop => { c with loop := loop }

end Client

def client : Labelled Client Event where
  init c := c = .start
  step c event d := c.next event = some d

/-- Only buttons on the screen. -/
def manualState (manualButtonIndices : List Nat) : GamepadState where
  clientIndex := 0
  buttons i := i.val ∈ manualButtonIndices
  axes _ := 0

/-- The last packet for this index is that of the state. -/
def Sent (c : Client) (state : GamepadState) : Prop :=
  ∃ payload, encodeGamepadState state = some payload ∧
    Input.lastFor state.clientIndex c.loop.packets = some payload

/-- No gamepad has the first index. -/
def FirstFree (c : Client) : Prop := ∀ b, c.loop.trackedGamepads.get b ≠ some 0

/-- The server knows the state of every gamepad, and the buttons on the screen in the first. -/
structure FullySent (c : Client) : Prop where
  tracked (b i : Nat) : c.loop.trackedGamepads.get b = some i →
    ∃ gamepad ∈ c.polled, gamepad.index = b ∧ Sent c (createGamepadState gamepad i c.manualButtonIndices)
  manual : FirstFree c →
    (c.manualButtonIndices ≠ [] ∨ ∃ packet ∈ c.loop.packets, Input.deviceOf packet = 0) →
    Sent c (manualState c.manualButtonIndices)

/-- Where there are gamepads, but none with the first index, no button of the screen is pressed;
otherwise those that make a difference are as they were when the state for that index was made. -/
structure Steady (c : Client) : Prop where
  free : c.polled ≠ [] → FirstFree c → ∀ i : Fin 17, i.val ∉ c.manualButtonIndices
  first : ∀ gamepad ∈ c.polled, c.loop.trackedGamepads.get gamepad.index = some 0 →
    ∀ i : Fin 17, gamepad.buttons.getD i false = false →
      (i.val ∈ c.made ↔ i.val ∈ c.manualButtonIndices)
  alone : c.polled = [] → ∀ i : Fin 17, i.val ∈ c.made ↔ i.val ∈ c.manualButtonIndices

/-! ### Packets -/

variable {s t : State} {state : GamepadState}

/-- The state that was sent last for its index. -/
def Told (s : State) (state : GamepadState) : Prop :=
  ∃ payload, encodeGamepadState state = some payload ∧
    s.lastSentPackets state.clientIndex = some payload

theorem isSome_encode (h : state.clientIndex = 0) : ∃ payload, encodeGamepadState state = some payload := by
  rw [encodeGamepadState, h, if_neg (by decide)]
  exact ⟨_, rfl⟩

theorem told_send (h : s.send state = some t) : Told t state := (send_spec h).1

/-- The packets for other indexes are left alone. -/
theorem lastSentPackets_send (h : s.send state = some t) {i : Nat} (hi : i ≠ state.clientIndex) :
    t.lastSentPackets i = s.lastSentPackets i := by
  obtain ⟨⟨written, lastSent⟩, hsent, rfl⟩ := Option.map_eq_some_iff.mp h
  obtain ⟨payload, -, hpacket⟩ := Option.map_eq_some_iff.mp hsent
  split at hpacket
  · cases hpacket
    rfl
  · cases hpacket
    exact Function.update_of_ne hi ..

theorem Told.send {other : GamepadState} (htold : Told s other) (h : s.send state = some t)
    (hne : other.clientIndex ≠ state.clientIndex) : Told t other := by
  obtain ⟨payload, hencode, hlast⟩ := htold
  exact ⟨payload, hencode, (lastSentPackets_send h hne).trans hlast⟩

theorem sendOr_cases (s : State) (state : GamepadState) (phase : Phase) :
    (encodeGamepadState state = none ∧ s.sendOr state phase = s.caught) ∨
      ∃ t, s.send state = some t ∧ s.sendOr state phase = t.goOn phase := by
  unfold State.sendOr
  split
  · next hnone => exact .inl ⟨by simpa [State.send, sendStateIfChanged] using hnone, rfl⟩
  · next t hsome => exact .inr ⟨t, hsome, rfl⟩

/-- Buttons on the screen make a difference for the first index alone. -/
theorem createGamepadState_of_ne {i : Nat} (hi : i ≠ 0) (gamepad : Gamepad) (manual manual' : List Nat) :
    createGamepadState gamepad i manual = createGamepadState gamepad i manual' := by
  simp [createGamepadState, hi]

/-! ### The first index -/

/-- Where gamepads are tracked, but none with the first index, the neutral packet was the last one
for it. -/
def FirstNeutral (s : State) : Prop :=
  (∃ b i, s.trackedGamepads.get b = some i) → (∀ b, s.trackedGamepads.get b ≠ some 0) →
    Told s (createNeutralGamepadState 0)

theorem FirstNeutral.send (h : FirstNeutral s) (hsend : s.send state = some t)
    (hfirst : state.clientIndex = 0 → ∃ b, s.trackedGamepads.get b = some 0) : FirstNeutral t := by
  obtain ⟨-, -, htracked, -, -⟩ := send_spec hsend
  intro hsome hfree
  rw [htracked] at hsome hfree
  refine (h hsome hfree).send hsend fun hsame => ?_
  obtain ⟨b, hb⟩ := hfirst hsame.symm
  exact hfree b hb

theorem FirstNeutral.track (h : FirstNeutral s) (hinv : s.Inv) (b : Nat) :
    FirstNeutral (s.track b).2 := by
  cases hget : s.trackedGamepads.get b with
  | some i =>
      rw [track_of_some hget]
      exact h
  | none =>
      rw [track_of_none hget]
      intro _ hfree
      dsimp only at hfree
      -- the first index was in use, or it would have been taken
      have hfree' (b' : Nat) : s.trackedGamepads.get b' ≠ some 0 := by
        intro hb'
        have hne : b' ≠ b := by
          rintro rfl
          rw [hget] at hb'
          cases hb'
        exact hfree b' ((OrderedMap.get_set_ne _ _ hne).trans hb')
      have hle : s.pool.take.1 ≤ 0 := hinv.serves.take_isLeast.2 fun ⟨b', hb'⟩ => hfree' b' hb'
      refine absurd ?_ (hfree b)
      rw [OrderedMap.get_set_self, Nat.le_zero.mp hle]

theorem FirstNeutral.delete (h : FirstNeutral s) {b i : Nat}
    (hget : s.trackedGamepads.get b = some i) (hsend : s.send (createNeutralGamepadState i) = some t) :
    FirstNeutral (t.delete b i) := by
  obtain ⟨-, -, htracked, -, -⟩ := send_spec hsend
  rintro ⟨b', i', hsome⟩ hfree
  by_cases hi : i = 0
  · subst hi
    have htold := told_send hsend
    exact htold
  · have hneutral : Told s (createNeutralGamepadState 0) := by
      refine h ⟨b, i, hget⟩ fun b' hb' => hfree b' ?_
      change (t.trackedGamepads.delete b).get b' = some 0
      rw [htracked, OrderedMap.get_delete_eq_some]
      refine ⟨?_, hb'⟩
      rintro rfl
      rw [hget] at hb'
      exact hi (Option.some.inj hb')
    have htold := hneutral.send hsend fun hsame => hi hsame.symm
    exact htold

/-! ### One turn of the loop -/

theorem release_cases (s : State) (gamepads : List Gamepad) (b : Nat) (entries : List Nat) :
    ((b ∈ gamepads.map Gamepad.index ∨ s.trackedGamepads.get b = none) ∧
      s.release gamepads b entries = s.goOn (.releasing gamepads entries)) ∨
    s.release gamepads b entries = s.caught ∨
    ∃ i t, s.trackedGamepads.get b = some i ∧ s.send (createNeutralGamepadState i) = some t ∧
      s.release gamepads b entries = (t.delete b i).goOn (.releasing gamepads entries) := by
  unfold State.release
  split
  · next hmem => exact .inl ⟨.inl hmem, rfl⟩
  · split
    · next hnone => exact .inl ⟨.inr hnone, rfl⟩
    · next i hget =>
      split
      · exact .inr (.inl rfl)
      · next t hsend => exact .inr (.inr ⟨i, t, hget, hsend, rfl⟩)

/-- A gamepad is tracked now, and the others are where they were. -/
theorem track_spec (s : State) (b : Nat) :
    (s.track b).2.trackedGamepads.get b = some (s.track b).1 ∧
      (∀ b' i, (s.track b).2.trackedGamepads.get b' = some i → b' = b ∨
        s.trackedGamepads.get b' = some i) ∧
      (∀ b' i, s.trackedGamepads.get b' = some i → (s.track b).2.trackedGamepads.get b' = some i) ∧
      (s.track b).2.lastSentPackets = s.lastSentPackets := by
  cases hget : s.trackedGamepads.get b with
  | some i =>
      rw [track_of_some hget]
      exact ⟨hget, fun _ _ h => .inr h, fun _ _ h => h, rfl⟩
  | none =>
      rw [track_of_none hget]
      refine ⟨OrderedMap.get_set_self .., fun b' i h => ?_, fun b' i h => ?_, rfl⟩
      · by_cases hb : b' = b
        · exact .inl hb
        · exact .inr ((OrderedMap.get_set_ne _ _ hb).symm.trans h)
      · have hb : b' ≠ b := by
          rintro rfl
          rw [hget] at h
          cases h
        exact (OrderedMap.get_set_ne _ _ hb).trans h

theorem change_track (s : State) (b : Nat) : Change s (s.track b).2 := by
  cases hget : s.trackedGamepads.get b with
  | some i =>
      rw [track_of_some hget]
      exact .same rfl rfl
  | none =>
      rw [track_of_none hget]
      exact .tracked b hget rfl rfl

/-- The gamepads before `rest` have been gone through. -/
structure Through (c : Client) (rest : List Gamepad) : Prop where
  known (b i : Nat) : c.loop.trackedGamepads.get b = some i → b ∈ c.polled.map Gamepad.index
  told : ∃ before, c.polled = before ++ rest ∧ ∀ gamepad ∈ before, ∃ i,
    c.loop.trackedGamepads.get gamepad.index = some i ∧
      Told c.loop (createGamepadState gamepad i c.made)

/-- What is known where the loop is. -/
def AtPhase (c : Client) : Phase → Prop
  | .idle => c.complete = true →
      Through c [] ∧ (c.polled = [] → Told c.loop (manualState c.made))
  | .releasing gamepads entries => gamepads = c.polled ∧ ∀ b i,
      c.loop.trackedGamepads.get b = some i → b ∈ c.polled.map Gamepad.index ∨ b ∈ entries
  | .assigning gamepads rest => gamepads = c.polled ∧ Through c rest

structure Inv (c : Client) : Prop where
  loop : c.loop.Inv
  first : FirstNeutral c.loop
  nodup : (c.polled.map Gamepad.index).Nodup
  phase : AtPhase c c.loop.phase
  idle : c.complete = true → c.loop.phase = .idle

variable {c d : Client} {u : State}

theorem Inv.index_ne (h : Inv c) {before rest : List Gamepad} {gamepad other : Gamepad}
    (hpolled : c.polled = before ++ gamepad :: rest) (hother : other ∈ before) :
    other.index ≠ gamepad.index := by
  have hnodup := h.nodup
  rw [hpolled, List.map_append, List.nodup_append] at hnodup
  exact hnodup.2.2 _ (List.mem_map_of_mem hother) _ (List.mem_map_of_mem List.mem_cons_self)

/-- An entry is looked at. -/
theorem Inv.release (h : Inv c) {gamepads : List Gamepad} {b : Nat} {entries : List Nat}
    (hphase : c.loop.phase = .releasing gamepads (b :: entries))
    (hu : u = c.loop.release gamepads b entries) :
    FirstNeutral u ∧ AtPhase { c with loop := u, complete := false } u.phase := by
  have hold := h.phase
  rw [hphase] at hold
  obtain ⟨rfl, hknown⟩ := hold
  rcases release_cases c.loop c.polled b entries with ⟨hkept, heq⟩ | heq | ⟨i, t, hget, hsend, heq⟩
  · rw [heq] at hu
    subst hu
    refine ⟨h.first, rfl, fun b' i hb' => ?_⟩
    rcases hknown b' i hb' with hmem | hmem
    · exact .inl hmem
    · rcases List.mem_cons.mp hmem with rfl | hrest
      · refine .inl (hkept.resolve_right fun hnone => ?_)
        exact absurd (hnone.symm.trans hb') nofun
      · exact .inr hrest
  · rw [heq] at hu
    subst hu
    exact ⟨h.first, nofun⟩
  · rw [heq] at hu
    subst hu
    obtain ⟨-, -, htracked, -, -⟩ := send_spec hsend
    refine ⟨h.first.delete hget hsend, rfl, fun b' i' hb' => ?_⟩
    replace hb' : (t.trackedGamepads.delete b).get b' = some i' := hb'
    rw [htracked, OrderedMap.get_delete_eq_some] at hb'
    rcases hknown b' i' hb'.2 with hmem | hmem
    · exact .inl hmem
    · exact .inr ((List.mem_cons.mp hmem).resolve_left hb'.1)

/-- A gamepad is gone through. -/
theorem Inv.assign (h : Inv c) {gamepads rest : List Gamepad} {gamepad : Gamepad}
    (hphase : c.loop.phase = .assigning gamepads (gamepad :: rest))
    (hu : u = c.loop.assign gamepads gamepad rest c.manualButtonIndices) :
    FirstNeutral u ∧ AtPhase
      { c with
        loop := u
        made := if c.MakesFirst then c.manualButtonIndices else c.made
        complete := false } u.phase := by
  have hold := h.phase
  rw [hphase] at hold
  obtain ⟨rfl, hknown, before, hpolled, htold⟩ := hold
  have hmakes : c.MakesFirst ↔ (c.loop.track gamepad.index).1 = 0 := by
    rw [Client.MakesFirst, hphase]
  have hfirst := h.first.track h.loop gamepad.index
  obtain ⟨hinj, -, -⟩ := h.loop.change (change_track c.loop gamepad.index)
  obtain ⟨hget, hback, hforth, hlast⟩ := track_spec c.loop gamepad.index
  unfold State.assign at hu
  generalize c.loop.track gamepad.index = tracked at hu hmakes hfirst hinj hget hback hforth hlast
  obtain ⟨i, v⟩ := tracked
  dsimp only at hu hmakes hfirst hinj hget hback hforth hlast
  rcases sendOr_cases v (createGamepadState gamepad i c.manualButtonIndices)
    (.assigning c.polled rest) with ⟨-, heq⟩ | ⟨t, hsend, heq⟩
  · rw [heq] at hu
    subst hu
    exact ⟨hfirst, nofun⟩
  · rw [heq] at hu
    subst hu
    obtain ⟨-, -, htracked, -, -⟩ := send_spec hsend
    have hneutral : FirstNeutral t := by
      refine hfirst.send hsend fun hi => ⟨gamepad.index, ?_⟩
      rw [hget]
      exact congrArg some hi
    refine ⟨hneutral, rfl, fun b' i' hb' => ?_, before ++ [gamepad], ?_, fun other hother => ?_⟩
    · replace hb' : t.trackedGamepads.get b' = some i' := hb'
      rw [htracked] at hb'
      rcases hback b' i' hb' with rfl | hold
      · refine List.mem_map_of_mem ?_
        rw [hpolled]
        exact List.mem_append_right _ List.mem_cons_self
      · exact hknown b' i' hold
    · rw [hpolled, List.append_assoc, List.singleton_append]
    · change ∃ i', t.trackedGamepads.get other.index = some i' ∧ Told t (createGamepadState other i'
        (if c.MakesFirst then c.manualButtonIndices else c.made))
      rw [htracked]
      rcases List.mem_append.mp hother with hbefore | hnew
      · obtain ⟨i', hi', htold'⟩ := htold other hbefore
        have hne : i' ≠ i := by
          rintro rfl
          have hsame := hinj _ _ _ (hforth _ _ hi') hget
          exact h.index_ne hpolled hbefore hsame
        refine ⟨i', hforth _ _ hi', ?_⟩
        -- nothing else was made for the first index
        have hmade : createGamepadState other i'
            (if c.MakesFirst then c.manualButtonIndices else c.made) = createGamepadState other i' c.made := by
          by_cases hzero : i' = 0
          · rw [if_neg fun hmade => hne (hzero.trans (hmakes.mp hmade).symm)]
          · exact createGamepadState_of_ne hzero ..
        rw [hmade]
        obtain ⟨payload, hencode, hpayload⟩ := htold'
        refine Told.send ⟨payload, hencode, ?_⟩ hsend hne
        rw [hlast]
        exact hpayload
      · obtain rfl := List.mem_singleton.mp hnew
        refine ⟨i, hget, ?_⟩
        have hmade : createGamepadState other i
            (if c.MakesFirst then c.manualButtonIndices else c.made) =
            createGamepadState other i c.manualButtonIndices := by
          by_cases hzero : i = 0
          · rw [if_pos (hmakes.mpr hzero)]
          · exact createGamepadState_of_ne hzero ..
        rw [hmade]
        exact told_send hsend

theorem getD_createVirtualManualGamepadState (manualButtonIndices : List Nat) :
    (createVirtualManualGamepadState manualButtonIndices).getD (createNeutralGamepadState 0) =
      manualState manualButtonIndices := by
  rw [createVirtualManualGamepadState]
  split
  · next hnone =>
    subst hnone
    simp [manualState, createNeutralGamepadState]
  · rfl

/-- All gamepads have been gone through. -/
theorem Inv.assigned (h : Inv c) {gamepads : List Gamepad} (hphase : c.loop.phase = .assigning gamepads [])
    (hu : u = c.loop.assigned gamepads c.manualButtonIndices) :
    FirstNeutral u ∧ AtPhase
      { c with
        loop := u
        made := if c.MakesFirst then c.manualButtonIndices else c.made
        complete := true } u.phase := by
  have hold := h.phase
  rw [hphase] at hold
  obtain ⟨rfl, hthrough⟩ := hold
  have hmakes : c.MakesFirst ↔ c.polled = [] := by
    rw [Client.MakesFirst, hphase]
  rw [State.assigned, getD_createVirtualManualGamepadState] at hu
  by_cases hnil : c.polled = []
  · rw [if_pos hnil] at hu
    have hnone (b i : Nat) : c.loop.trackedGamepads.get b ≠ some i := by
      intro hb
      have hmem := hthrough.known b i hb
      rw [hnil] at hmem
      cases hmem
    rcases sendOr_cases c.loop (manualState c.manualButtonIndices) .idle with
      ⟨hencode, -⟩ | ⟨t, hsend, heq⟩
    · have hindex : (manualState c.manualButtonIndices).clientIndex = 0 := rfl
      obtain ⟨payload, hsome⟩ := isSome_encode hindex
      exact absurd (hencode.symm.trans hsome) nofun
    · rw [heq] at hu
      subst hu
      obtain ⟨-, -, htracked, -, -⟩ := send_spec hsend
      have hnone' (b i : Nat) : t.trackedGamepads.get b ≠ some i := by
        rw [htracked]
        exact hnone b i
      refine ⟨?_, fun _ => ⟨⟨fun b i hb => absurd hb (hnone' b i), [], ?_, nofun⟩, fun _ => ?_⟩⟩
      · rintro ⟨b, i, hb⟩
        exact absurd hb (hnone' b i)
      · exact hnil
      · change Told t (manualState (if c.MakesFirst then c.manualButtonIndices else c.made))
        rw [if_pos (hmakes.mpr hnil)]
        exact told_send hsend
  · rw [if_neg hnil] at hu
    subst hu
    rw [if_neg fun hmade => hnil (hmakes.mp hmade)]
    exact ⟨h.first, fun _ => ⟨⟨hthrough.known, hthrough.told⟩, fun h => absurd h hnil⟩⟩

/-! ### All runs -/

theorem inv_start : Inv .start where
  loop := GamepadIndexes.inv_start
  first := by
    rintro ⟨b, i, hb⟩
    cases hb
  nodup := List.nodup_nil
  phase := nofun
  idle := nofun

theorem Through.same {rest : List Gamepad} (h : Through c rest)
    (htracked : d.loop.trackedGamepads = c.loop.trackedGamepads)
    (hlast : d.loop.lastSentPackets = c.loop.lastSentPackets) (hpolled : d.polled = c.polled)
    (hmade : d.made = c.made) : Through d rest := by
  obtain ⟨before, hbefore, htold⟩ := h.told
  refine ⟨fun b i hb => ?_, before, hpolled.trans hbefore, fun gamepad hgamepad => ?_⟩
  · rw [htracked] at hb
    rw [hpolled]
    exact h.known b i hb
  · obtain ⟨i, hi, payload, hencode, hpayload⟩ := htold gamepad hgamepad
    rw [htracked, hmade]
    refine ⟨i, hi, payload, hencode, ?_⟩
    rw [hlast]
    exact hpayload

theorem AtPhase.same {phase : Phase} (h : AtPhase c phase)
    (htracked : d.loop.trackedGamepads = c.loop.trackedGamepads)
    (hlast : d.loop.lastSentPackets = c.loop.lastSentPackets) (hpolled : d.polled = c.polled)
    (hmade : d.made = c.made) (hcomplete : d.complete = true → c.complete = true) : AtPhase d phase := by
  cases phase with
  | idle =>
      intro hd
      obtain ⟨hthrough, halone⟩ := h (hcomplete hd)
      refine ⟨hthrough.same htracked hlast hpolled hmade, fun hnil => ?_⟩
      obtain ⟨payload, hencode, hpayload⟩ := halone (hpolled.symm.trans hnil)
      rw [hmade]
      refine ⟨payload, hencode, ?_⟩
      rw [hlast]
      exact hpayload
  | releasing gamepads entries =>
      obtain ⟨rfl, hknown⟩ := h
      refine ⟨hpolled.symm, fun b i hb => ?_⟩
      rw [htracked] at hb
      rw [hpolled]
      exact hknown b i hb
  | assigning gamepads rest =>
      obtain ⟨rfl, hthrough⟩ := h
      exact ⟨hpolled.symm, hthrough.same htracked hlast hpolled hmade⟩

theorem phase_assigned (gamepads : List Gamepad) (manualButtonIndices : List Nat) :
    (s.assigned gamepads manualButtonIndices).phase = .idle := by
  rw [State.assigned]
  split
  · rcases sendOr_cases s ((createVirtualManualGamepadState manualButtonIndices).getD
      (createNeutralGamepadState 0)) .idle with ⟨-, heq⟩ | ⟨t, -, heq⟩
    · rw [heq]
      rfl
    · rw [heq]
      rfl
  · rfl

/-- One turn. -/
theorem Inv.move (h : Inv c) (hmove : c.loop.move (.work c.manualButtonIndices) = some u) :
    (FirstNeutral u ∧ AtPhase
      { c with
        loop := u
        made := if c.MakesFirst then c.manualButtonIndices else c.made
        complete := decide c.AtEnd } u.phase) ∧ (c.AtEnd → u.phase = .idle) := by
  rw [State.move] at hmove
  split at hmove
  · cases hmove
  · next gamepads b entries hphase =>
    have hmade : ¬ c.MakesFirst := by rw [Client.MakesFirst, hphase]; exact id
    have hend : ¬ c.AtEnd := by rw [Client.AtEnd, hphase]; exact id
    rw [if_neg hmade, decide_eq_false hend]
    exact ⟨h.release hphase (Option.some.inj hmove).symm, fun h => absurd h hend⟩
  · next gamepads hphase =>
    have hmade : ¬ c.MakesFirst := by rw [Client.MakesFirst, hphase]; exact id
    have hend : ¬ c.AtEnd := by rw [Client.AtEnd, hphase]; exact id
    have hold := h.phase
    rw [hphase] at hold
    obtain ⟨rfl, hknown⟩ := hold
    cases hmove
    rw [if_neg hmade]
    refine ⟨⟨h.first, rfl, fun b i hb => ?_, [], rfl, fun _ hg => ?_⟩, fun h => absurd h hend⟩
    · exact (hknown b i hb).resolve_right List.not_mem_nil
    · exact absurd hg List.not_mem_nil
  · next gamepads gamepad rest hphase =>
    have hend : ¬ c.AtEnd := by rw [Client.AtEnd, hphase]; exact id
    rw [decide_eq_false hend]
    exact ⟨h.assign hphase (Option.some.inj hmove).symm, fun h => absurd h hend⟩
  · next gamepads hphase =>
    have hend : c.AtEnd := by rw [Client.AtEnd, hphase]; trivial
    rw [decide_eq_true hend]
    refine ⟨h.assigned hphase (Option.some.inj hmove).symm, fun _ => ?_⟩
    cases hmove
    exact phase_assigned ..

theorem Inv.next (h : Inv c) {event : Event} (hstep : c.next event = some d) : Inv d := by
  cases event with
  | setManualButton buttonIndex isPressed =>
      cases hstep
      exact ⟨h.loop, h.first, h.nodup, h.phase.same rfl rfl rfl rfl id, h.idle⟩
  | poll gamepads =>
      rw [Client.next] at hstep
      split at hstep
      · cases hstep
      · split at hstep
        · next hcomplete hnodup =>
          obtain ⟨t, hpoll, rfl⟩ := Option.map_eq_some_iff.mp hstep
          have hloop := h.loop.next hpoll
          obtain ⟨u, hmove, rfl⟩ := Option.map_eq_some_iff.mp hpoll
          rw [State.move] at hmove
          split at hmove
          · cases hmove
            exact ⟨hloop, h.first, hnodup, ⟨rfl, fun b i hb => .inr (OrderedMap.mem_keys_of_get hb)⟩,
              fun hcomplete' => absurd hcomplete' hcomplete⟩
          · cases hmove
        · cases hstep
  | work =>
      obtain ⟨t, hwork, rfl⟩ := Option.map_eq_some_iff.mp hstep
      have hloop := h.loop.next hwork
      obtain ⟨u, hmove, rfl⟩ := Option.map_eq_some_iff.mp hwork
      obtain ⟨⟨hfirst, hat⟩, hidle⟩ := h.move hmove
      exact ⟨hloop, hfirst, h.nodup, hat.same rfl rfl rfl rfl id, fun hend => hidle (of_decide_eq_true hend)⟩
  | finish =>
      rw [Client.next] at hstep
      split at hstep
      · cases hstep
        refine ⟨h.loop, h.first, h.nodup, h.phase.same rfl rfl rfl rfl ?_, ?_⟩
        · rintro ⟨⟩
        · rintro ⟨⟩
      · cases hstep
  | dispose =>
      cases hstep
      have hloop := h.loop.next (show c.loop.next .dispose = some _ from rfl)
      exact ⟨hloop, h.first, h.nodup, h.phase.same rfl rfl rfl rfl id, h.idle⟩

theorem inv_of_run {trace : List Event} (hc : client.Run trace c) : Inv c := by
  refine hc.always Inv ?_ ?_
  · rintro _ rfl
    exact inv_start
  · exact fun _ _ _ h hstep => h.next hstep

/-! ### What has been sent -/

theorem Inv.sent_iff (h : Inv c) : Sent c state ↔ Told c.loop state := by
  constructor
  · rintro ⟨payload, hencode, hlast⟩
    exact ⟨payload, hencode, (h.loop.sent _).trans hlast⟩
  · rintro ⟨payload, hencode, hlast⟩
    exact ⟨payload, hencode, (h.loop.sent _).symm.trans hlast⟩

/-- There is one last packet, so the same buttons are pressed in all states it is of. -/
theorem Told.buttons {other : GamepadState} (h : Told s state) (hother : Told s other)
    (hindex : state.clientIndex = other.clientIndex) (i : Fin 17) : state.buttons i = other.buttons i := by
  obtain ⟨payload, hencode, hlast⟩ := h
  obtain ⟨payload', hencode', hlast'⟩ := hother
  rw [hindex, hlast'] at hlast
  obtain rfl := Option.some.inj hlast
  have hbyte := (Input.button_encode hencode i).symm.trans (Input.button_encode hencode' i)
  cases hbutton : state.buttons i <;> cases hbutton' : other.buttons i <;>
    simp [hbutton, hbutton', buttonByte] at hbyte ⊢

theorem createGamepadState_congr {i : Nat} {gamepad : Gamepad} {manual manual' : List Nat}
    (h : i = 0 → ∀ k : Fin 17, gamepad.buttons.getD k false = false → (k.val ∈ manual ↔ k.val ∈ manual')) :
    createGamepadState gamepad i manual = createGamepadState gamepad i manual' := by
  by_cases hi : i = 0
  · subst hi
    rw [createGamepadState, createGamepadState, GamepadState.mk.injEq]
    refine ⟨rfl, funext fun k => ?_, rfl⟩
    cases hbutton : gamepad.buttons.getD k false with
    | true => rw [Bool.true_or, Bool.true_or]
    | false => simp only [h rfl k hbutton, Bool.false_or]
  · exact createGamepadState_of_ne hi ..

theorem manualState_congr {manual manual' : List Nat}
    (h : ∀ k : Fin 17, k.val ∈ manual ↔ k.val ∈ manual') : manualState manual = manualState manual' := by
  simp only [manualState, h]

/-- At the end of an iteration. -/
structure AtFinish (c : Client) : Prop where
  inv : Inv c
  known (b i : Nat) : c.loop.trackedGamepads.get b = some i → b ∈ c.polled.map Gamepad.index
  told : ∀ gamepad ∈ c.polled, ∃ i, c.loop.trackedGamepads.get gamepad.index = some i ∧
    Told c.loop (createGamepadState gamepad i c.made)
  alone : c.polled = [] → Told c.loop (manualState c.made)

theorem Inv.atFinish (h : Inv c) (hcomplete : c.complete = true) : AtFinish c := by
  have hphase := h.phase
  rw [h.idle hcomplete] at hphase
  obtain ⟨⟨hknown, before, hpolled, htold⟩, halone⟩ := hphase hcomplete
  rw [List.append_nil] at hpolled
  subst hpolled
  exact ⟨h, hknown, htold, halone⟩

/-- With gamepads, but none that has the first index, that index is neutral. -/
theorem AtFinish.neutral (h : AtFinish c) (hpolled : c.polled ≠ []) (hfree : FirstFree c) :
    Told c.loop (createNeutralGamepadState 0) := by
  obtain ⟨gamepad, hmem⟩ := List.exists_mem_of_ne_nil _ hpolled
  obtain ⟨i, hi, -⟩ := h.told gamepad hmem
  exact h.inv.first ⟨gamepad.index, i, hi⟩ hfree

theorem AtFinish.exists_packet (h : AtFinish c) (htold : Told c.loop state) :
    ∃ packet ∈ c.loop.packets, Input.deviceOf packet = state.clientIndex := by
  obtain ⟨payload, -, hlast⟩ := h.inv.sent_iff.mpr htold
  have hmem := List.mem_of_getLast? hlast
  rw [List.mem_filter] at hmem
  exact ⟨payload, hmem.1, of_decide_eq_true hmem.2⟩

theorem AtFinish.fullySent (h : AtFinish c) (hsteady : Steady c) : FullySent c where
  tracked b i hb := by
    obtain ⟨gamepad, hmem, rfl⟩ := List.mem_map.mp (h.known b i hb)
    obtain ⟨i', hi', htold⟩ := h.told gamepad hmem
    obtain rfl : i = i' := Option.some.inj (hb.symm.trans hi')
    refine ⟨gamepad, hmem, rfl, h.inv.sent_iff.mpr ?_⟩
    have hsame : createGamepadState gamepad i c.made = createGamepadState gamepad i c.manualButtonIndices := by
      refine createGamepadState_congr ?_
      rintro rfl
      exact hsteady.first gamepad hmem hb
    rw [← hsame]
    exact htold
  manual hfree _ := by
    refine h.inv.sent_iff.mpr ?_
    by_cases hpolled : c.polled = []
    · rw [← manualState_congr (hsteady.alone hpolled)]
      exact h.alone hpolled
    · have hneutral : createNeutralGamepadState 0 = manualState c.manualButtonIndices := by
        simp only [createNeutralGamepadState, manualState, hsteady.free hpolled hfree, decide_false]
      rw [← hneutral]
      exact h.neutral hpolled hfree

theorem AtFinish.steady (h : AtFinish c) (hfully : FullySent c) : Steady c where
  free hpolled hfree k hk := by
    have hneutral := h.neutral hpolled hfree
    have hmanual := hfully.manual hfree (.inr (h.exists_packet hneutral))
    have hbuttons := hneutral.buttons (h.inv.sent_iff.mp hmanual) rfl k
    exact absurd (hbuttons.trans (decide_eq_true hk)) nofun
  first gamepad hmem hzero k hk := by
    obtain ⟨i, hi, htold⟩ := h.told gamepad hmem
    obtain rfl : 0 = i := Option.some.inj (hzero.symm.trans hi)
    obtain ⟨gamepad', hmem', hindex, hsent⟩ := hfully.tracked _ _ hzero
    obtain rfl := List.inj_on_of_nodup_map h.inv.nodup hmem' hmem hindex
    have hbuttons := htold.buttons (h.inv.sent_iff.mp hsent) rfl k
    simp only [createGamepadState, hk, decide_true, Bool.true_and, Bool.false_or, decide_eq_decide] at hbuttons
    exact hbuttons
  alone hpolled k := by
    have htold := h.alone hpolled
    have hfree : FirstFree c := by
      intro b hb
      have hmem := h.known b 0 hb
      rw [hpolled] at hmem
      cases hmem
    have hmanual := hfully.manual hfree (.inr (h.exists_packet htold))
    have hbuttons := htold.buttons (h.inv.sent_iff.mp hmanual) rfl k
    simpa [manualState] using hbuttons

/-- After an iteration everything has been sent just if the buttons on the screen were steady, and none
is pressed where gamepads are there but the first index is free. -/
theorem fullySent_iff {trace : List Event} (hc : client.Run trace c) (hfinish : c.next .finish = some d) :
    FullySent d ↔ Steady c := by
  have hinv := inv_of_run hc
  rw [Client.next] at hfinish
  split at hfinish
  · next hcomplete =>
    cases hfinish
    have hat := hinv.atFinish hcomplete
    constructor
    · intro hfully
      exact hat.steady ⟨hfully.tracked, hfully.manual⟩
    · intro hsteady
      have hfully := hat.fullySent hsteady
      exact ⟨hfully.tracked, hfully.manual⟩
  · cases hfinish

/-- A button is pressed before the only gamepad is seen. -/
def steady : List Event :=
  [.setManualButton 3 true, .poll [some ⟨4, "pad", true, [true], []⟩], .work, .work, .work]

theorem steady_fullySent : ∃ c d : Client, client.Run steady c ∧ c.next .finish = some d ∧ FullySent d := by
  obtain ⟨c, hrun, hfacts⟩ : ∃ c : Client, client.Run steady c ∧
      (c.manualButtonIndices, c.made, c.complete, c.polled.map Gamepad.index, c.loop.trackedGamepads.get 4) =
        ([3], [3], true, [4], some 0) := Labelled.exists_run_next (by decide)
  simp only [Prod.mk.injEq] at hfacts
  obtain ⟨hmanual, hmade, hcomplete, hpolled, hfirst⟩ := hfacts
  have hfinish : c.next .finish = some { c with complete := false } := if_pos hcomplete
  refine ⟨c, _, hrun, hfinish, (fullySent_iff hrun hfinish).mpr ?_⟩
  have hsame (i : Fin 17) : i.val ∈ c.made ↔ i.val ∈ c.manualButtonIndices := by rw [hmade, hmanual]
  exact ⟨fun _ hfree => absurd hfirst (hfree 4), fun _ _ _ i _ => hsame i, fun _ => hsame⟩

/-- The first of two gamepads goes, and a button is pressed. -/
def firstGone : List Event :=
  [.poll [some ⟨4, "pad", true, [], []⟩, some ⟨7, "pad", true, [], []⟩], .work, .work, .work, .work, .finish,
    .setManualButton 3 true, .poll [some ⟨7, "pad", true, [], []⟩], .work, .work, .work, .work, .work]

theorem firstGone_not_fullySent :
    ¬ ∀ (trace : List Event) (c d : Client), client.Run trace c → c.next .finish = some d → FullySent d := by
  intro hclaim
  obtain ⟨c, hrun, hfacts⟩ : ∃ c : Client, client.Run firstGone c ∧
      (c.manualButtonIndices, c.complete, c.polled.map Gamepad.index, c.loop.trackedGamepads.keys,
        c.loop.trackedGamepads.get 7) = ([3], true, [7], [7], some 1) :=
    Labelled.exists_run_next (by decide)
  simp only [Prod.mk.injEq] at hfacts
  obtain ⟨hmanual, hcomplete, hpolled, hkeys, hseven⟩ := hfacts
  have hfinish : c.next .finish = some { c with complete := false } := if_pos hcomplete
  have hfully := hclaim _ _ _ hrun hfinish
  have hsteady := ((inv_of_run hrun).atFinish hcomplete).steady ⟨hfully.tracked, hfully.manual⟩
  have hfree : FirstFree c := by
    intro b hb
    have hmem := OrderedMap.mem_keys_of_get hb
    rw [hkeys, List.mem_singleton] at hmem
    rw [hmem, hseven] at hb
    cases hb
  refine hsteady.free ?_ hfree 3 ?_
  · intro hnil
    rw [hnil] at hpolled
    cases hpolled
  · rw [hmanual]
    exact List.mem_singleton_self 3

end ClientState

end Stratus.Frontend
