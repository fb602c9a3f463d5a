import Mathlib.Data.Fin.VecNotation
import Mathlib.Logic.Function.Basic
import Stratus.Input.Gamepad

/-! `gamepad_update` event by event, and the device that the events make.  All writes succeed. -/
namespace Stratus.Input

namespace GamepadEvents

/-- `struct input_event`, but for its time. -/
structure InputEvent where
  type : Nat
  code : Nat
  value : Int
deriving DecidableEq

def evSyn : Nat := 0

def evKey : Nat := 1

def evAbs : Nat := 3

/-- `gamepad_button_codes`. -/
def gamepadButtonCodes : Fin 17 → Nat :=
  ![0x130, 0x131, 0x133, 0x134, 0x136, 0x137, 0x138, 0x139, 0x13a, 0x13b, 0x13d, 0x13e, 0x220, 0x221,
    0x222, 0x223, 0x13c]

/-- `gamepad_axis_codes`. -/
def gamepadAxisCodes : Fin 4 → Nat := ![0, 1, 3, 4]

def keyOf (i : Fin 17) (pressed : Bool) : InputEvent :=
  ⟨evKey, gamepadButtonCodes i, if pressed then 1 else 0⟩

def absOf (i : Fin 4) (value : Int) : InputEvent := ⟨evAbs, gamepadAxisCodes i, value⟩

def synReport : InputEvent := ⟨evSyn, 0, 0⟩

/-- The variables of `gamepad_update`, with the events that it has written. -/
structure Update where
  state : GamepadState
  events : List InputEvent
  changed : Bool

/-- A turn of the first loop. -/
def updateButton (new : GamepadState) (u : Update) (i : Fin 17) : Update :=
  if new.buttons i || u.state.buttons i then
    { state := { u.state with buttons := Function.update u.state.buttons i (new.buttons i) }
      events := u.events ++ [keyOf i (new.buttons i)]
      changed := true }
  else u

/-- A turn of the second one. -/
def updateAxis (new : GamepadState) (u : Update) (i : Fin 4) : Update :=
  if new.axes i ≠ 0 ∨ u.state.axes i ≠ 0 then
    { state := { u.state with axes := Function.update u.state.axes i (new.axes i) }
      events := u.events ++ [absOf i (new.axes i)]
      changed := true }
  else u

/-- The variables after both loops. -/
def bothLoops (state new : GamepadState) : Update :=
  let u := (List.finRange 17).foldl (updateButton new) ⟨state, [], false⟩
  (List.finRange 4).foldl (updateAxis new) u

/-- The mirror after the call, and the events that the call has written. -/
def gamepadUpdate (state new : GamepadState) : GamepadState × List InputEvent :=
  let u := bothLoops state new
  (u.state, if u.changed then u.events ++ [synReport] else u.events)

/-- The calls one after the other. -/
def gamepadUpdates (state : GamepadState) : List GamepadState → GamepadState × List InputEvent
  | [] => (state, [])
  | new :: news =>
      let (next, events) := gamepadUpdate state new
      let (last, more) := gamepadUpdates next news
      (last, events ++ more)

/-- A device as a game sees it. -/
structure Device where
  keys : Nat → Bool
  abs : Nat → Int

def Device.start : Device := ⟨fun _ => false, fun _ => 0⟩

def Device.receive (d : Device) (event : InputEvent) : Device :=
  if event.type = evKey then { d with keys := Function.update d.keys event.code (event.value ≠ 0) }
  else if event.type = evAbs then { d with abs := Function.update d.abs event.code event.value }
  else d

def Device.replay (d : Device) (events : List InputEvent) : Device := events.foldl Device.receive d

/-- The device shows this state. -/
structure Device.Shows (d : Device) (state : GamepadState) : Prop where
  buttons (i : Fin 17) : d.keys (gamepadButtonCodes i) = state.buttons i
  axes (i : Fin 4) : d.abs (gamepadAxisCodes i) = state.axes i

theorem gamepadButtonCodes_injective : Function.Injective gamepadButtonCodes := by
  intro i j
  revert i j
  decide

theorem gamepadAxisCodes_injective : Function.Injective gamepadAxisCodes := by
  intro i j
  revert i j
  decide

/-! ### The device -/

theorem Device.replay_append (d : Device) (events more : List InputEvent) :
    d.replay (events ++ more) = (d.replay events).replay more :=
  List.foldl_append

theorem Device.receive_keyOf (d : Device) (i : Fin 17) (pressed : Bool) :
    d.receive (keyOf i pressed) =
      { d with keys := Function.update d.keys (gamepadButtonCodes i) pressed } := by
  cases pressed <;> rfl

theorem Device.receive_absOf (d : Device) (i : Fin 4) (value : Int) :
    d.receive (absOf i value) = { d with abs := Function.update d.abs (gamepadAxisCodes i) value } := rfl

/-! ### One turn -/

/-- The events before a turn make the device show the mirror, and none of them is the report. -/
structure Inv (d : Device) (u : Update) : Prop where
  mirror : (d.replay u.events).Shows u.state
  unreported : synReport ∉ u.events

theorem synReport_ne_keyOf (i : Fin 17) (pressed : Bool) : synReport ≠ keyOf i pressed := fun h =>
  absurd (congrArg InputEvent.type h) (by decide : evSyn ≠ evKey)

theorem synReport_ne_absOf (i : Fin 4) (value : Int) : synReport ≠ absOf i value := fun h =>
  absurd (congrArg InputEvent.type h) (by decide : evSyn ≠ evAbs)

theorem Inv.unreported_append {d : Device} {u : Update} (h : Inv d u) {event : InputEvent}
    (hevent : synReport ≠ event) : synReport ∉ u.events ++ [event] := by
  rw [List.mem_append, List.mem_singleton, not_or]
  exact ⟨h.unreported, hevent⟩

section Turn

variable {d : Device} {u : Update} (new : GamepadState)

theorem state_updateButton (u : Update) (i : Fin 17) :
    (updateButton new u i).state =
      { u.state with buttons := Function.update u.state.buttons i (new.buttons i) } := by
  rw [updateButton]
  split
  · rfl
  · next hneutral =>
    -- both are released
    simp only [Bool.or_eq_true, not_or, Bool.not_eq_true] at hneutral
    rw [hneutral.1, ← hneutral.2, Function.update_eq_self]

theorem state_updateAxis (u : Update) (i : Fin 4) :
    (updateAxis new u i).state =
      { u.state with axes := Function.update u.state.axes i (new.axes i) } := by
  rw [updateAxis]
  split
  · rfl
  · next hneutral =>
    -- both are centred
    simp only [not_or, not_not] at hneutral
    rw [hneutral.1, ← hneutral.2, Function.update_eq_self]

theorem Inv.updateButton (h : Inv d u) (i : Fin 17) : Inv d (updateButton new u i) := by
  rw [GamepadEvents.updateButton]
  split
  · refine ⟨⟨fun j => ?_, fun j => ?_⟩, ?_⟩
    · rw [Device.replay_append]
      change ((d.replay u.events).receive (keyOf i (new.buttons i))).keys _ = _
      rw [Device.receive_keyOf]
      by_cases hij : j = i
      · subst hij
        simp
      · simp [hij, gamepadButtonCodes_injective.ne hij, h.mirror.buttons]
    · rw [Device.replay_append]
      change ((d.replay u.events).receive (keyOf i (new.buttons i))).abs _ = _
      rw [Device.receive_keyOf]
      exact h.mirror.axes j
    · exact h.unreported_append (synReport_ne_keyOf i _)
  · exact h

theorem Inv.updateAxis (h : Inv d u) (i : Fin 4) : Inv d (updateAxis new u i) := by
  rw [GamepadEvents.updateAxis]
  split
  · refine ⟨⟨fun j => ?_, fun j => ?_⟩, ?_⟩
    · rw [Device.replay_append]
      exact h.mirror.buttons j
    · rw [Device.replay_append]
      change ((d.replay u.events).receive (absOf i (new.axes i))).abs _ = _
      rw [Device.receive_absOf]
      by_cases hij : j = i
      · subst hij
        simp
      · simp [hij, gamepadAxisCodes_injective.ne hij, h.mirror.axes]
    · exact h.unreported_append (synReport_ne_absOf i _)
  · exact h

end Turn

/-! ### One call -/

/-- What every turn keeps holds after a loop. -/
theorem foldl_keeps {ι : Type} {turn : Update → ι → Update} (holds : Update → Prop)
    (hturn : ∀ u i, holds u → holds (turn u i)) (l : List ι) {u : Update} (hu : holds u) :
    holds (l.foldl turn u) := by
  induction l generalizing u with
  | nil => exact hu
  | cons i l ih => exact ih (hturn u i hu)

theorem state_foldl_updateButton (new : GamepadState) (l : List (Fin 17)) (u : Update) :
    (l.foldl (updateButton new) u).state =
      { u.state with buttons := fun i => if i ∈ l then new.buttons i else u.state.buttons i } := by
  induction l generalizing u with
  | nil => simp
  | cons i l ih =>
      rw [List.foldl_cons, ih, state_updateButton]
      ext j
      · by_cases hl : j ∈ l <;> by_cases hj : j = i <;> simp [hl, hj, Function.update]
      · rfl

theorem state_foldl_updateAxis (new : GamepadState) (l : List (Fin 4)) (u : Update) :
    (l.foldl (updateAxis new) u).state =
      { u.state with axes := fun i => if i ∈ l then new.axes i else u.state.axes i } := by
  induction l generalizing u with
  | nil => simp
  | cons i l ih =>
      rw [List.foldl_cons, ih, state_updateAxis]
      ext j
      · rfl
      · by_cases hl : j ∈ l <;> by_cases hj : j = i <;> simp [hl, hj, Function.update]

/-- Every button and every axis has its turn. -/
theorem state_bothLoops (state new : GamepadState) : (bothLoops state new).state = new := by
  rw [bothLoops, state_foldl_updateAxis, state_foldl_updateButton]
  simp only [List.mem_finRange, if_true]

theorem inv_bothLoops {d : Device} {state : GamepadState} (hd : d.Shows state) (new : GamepadState) :
    Inv d (bothLoops state new) := by
  have hstart : Inv d ⟨state, [], false⟩ := ⟨hd, nofun⟩
  have hbuttons := foldl_keeps (Inv d) (fun u i h => h.updateButton new i) (List.finRange 17) hstart
  exact foldl_keeps (Inv d) (fun u i h => h.updateAxis new i) (List.finRange 4) hbuttons

/-- `changed` is set with the first event. -/
theorem changed_bothLoops (state new : GamepadState) :
    (bothLoops state new).changed = true ↔ (bothLoops state new).events ≠ [] := by
  have hstart : false = true ↔ ([] : List InputEvent) ≠ [] := by simp
  refine foldl_keeps (fun u => u.changed = true ↔ u.events ≠ []) ?_ _
    (foldl_keeps (fun u => u.changed = true ↔ u.events ≠ []) ?_ _ hstart)
  · intro u i h
    rw [updateAxis]
    split
    · simp
    · exact h
  · intro u i h
    rw [updateButton]
    split
    · simp
    · exact h

/-- What one call promises, for a device that shows the mirror. -/
structure Reported (d : Device) (new state : GamepadState) (events : List InputEvent) : Prop where
  mirror : state = new
  device : (d.replay events).Shows new
  report : ∃ changes, synReport ∉ changes ∧
    events = changes ++ if changes = [] then [] else [synReport]

theorem gamepadUpdate_reported {d : Device} {state : GamepadState} (hd : d.Shows state)
    (new : GamepadState) : Reported d new (gamepadUpdate state new).1 (gamepadUpdate state new).2 := by
  have h := inv_bothLoops hd new
  have hstate := state_bothLoops state new
  have hmirror := h.mirror
  rw [hstate] at hmirror
  rw [gamepadUpdate]
  dsimp only
  by_cases hchanged : (bothLoops state new).changed = true
  · have hsome := (changed_bothLoops state new).mp hchanged
    refine ⟨hstate, ?_, _, h.unreported, by rw [if_pos hchanged, if_neg hsome]⟩
    rw [if_pos hchanged, Device.replay_append]
    exact hmirror
  · have hnone : (bothLoops state new).events = [] := by
      by_contra hsome
      exact hchanged ((changed_bothLoops state new).mpr hsome)
    refine ⟨hstate, ?_, [], nofun, by rw [if_neg hchanged, hnone]; rfl⟩
    rw [if_neg hchanged]
    exact hmirror

/-! ### Runs -/

def zeroState : GamepadState := ⟨fun _ => false, fun _ => 0⟩

theorem start_shows : Device.start.Shows zeroState := ⟨fun _ => rfl, fun _ => rfl⟩

/-- The mirror and the device are together after any calls. -/
theorem gamepadUpdates_shows {d : Device} {state : GamepadState} (hd : d.Shows state)
    (news : List GamepadState) :
    (d.replay (gamepadUpdates state news).2).Shows (gamepadUpdates state news).1 := by
  induction news generalizing d state with
  | nil => exact hd
  | cons new news ih =>
      have hcall := gamepadUpdate_reported hd new
      have hshows : (d.replay (gamepadUpdate state new).2).Shows (gamepadUpdate state new).1 := by
        rw [hcall.mirror]
        exact hcall.device
      rw [gamepadUpdates, Device.replay_append]
      exact ih hshows

/-- After any calls on a new gamepad one more reports its state. -/
theorem gamepad_reported (news : List GamepadState) (new : GamepadState) :
    Reported (Device.start.replay (gamepadUpdates zeroState news).2) new
      (gamepadUpdate (gamepadUpdates zeroState news).1 new).1
      (gamepadUpdate (gamepadUpdates zeroState news).1 new).2 :=
  gamepadUpdate_reported (gamepadUpdates_shows start_shows news) new

/-! ### The events of the session -/

/-- What `libevdev` makes of an event of the session's gamepads. -/
def inputEvent : UinputEvent → InputEvent
  | .key i pressed => keyOf i pressed
  | .abs i value => absOf i value
  | .synReport => synReport

variable (old new : GamepadState)

theorem events_foldl_updateButton {l : List (Fin 17)} (hl : l.Nodup) {u : Update}
    (hu : ∀ i ∈ l, u.state.buttons i = old.buttons i) :
    (l.foldl (updateButton new) u).events =
      u.events ++ (l.filterMap (keyEvent old new)).map inputEvent := by
  induction l generalizing u with
  | nil => simp
  | cons i l ih =>
      obtain ⟨hi, hnodup⟩ := List.nodup_cons.mp hl
      have hrest : ∀ j ∈ l, (updateButton new u i).state.buttons j = old.buttons j := by
        intro j hj
        have hne : j ≠ i := fun heq => hi (heq ▸ hj)
        rw [state_updateButton, ← hu j (List.mem_cons_of_mem _ hj)]
        exact Function.update_of_ne hne _ _
      rw [List.foldl_cons, ih hnodup hrest, updateButton, hu i List.mem_cons_self, List.filterMap_cons,
        keyEvent]
      split <;> simp [inputEvent]

theorem events_foldl_updateAxis {l : List (Fin 4)} (hl : l.Nodup) {u : Update}
    (hu : ∀ i ∈ l, u.state.axes i = old.axes i) :
    (l.foldl (updateAxis new) u).events =
      u.events ++ (l.filterMap (absEvent old new)).map inputEvent := by
  induction l generalizing u with
  | nil => simp
  | cons i l ih =>
      obtain ⟨hi, hnodup⟩ := List.nodup_cons.mp hl
      have hrest : ∀ j ∈ l, (updateAxis new u i).state.axes j = old.axes j := by
        intro j hj
        have hne : j ≠ i := fun heq => hi (heq ▸ hj)
        rw [state_updateAxis, ← hu j (List.mem_cons_of_mem _ hj)]
        exact Function.update_of_ne hne _ _
      rw [List.foldl_cons, ih hnodup hrest, updateAxis, hu i List.mem_cons_self, List.filterMap_cons,
        absEvent]
      split <;> simp [inputEvent]

/-- The events of both loops. -/
def changes : List UinputEvent :=
  (List.finRange 17).filterMap (keyEvent old new) ++ (List.finRange 4).filterMap (absEvent old new)

theorem events_bothLoops : (bothLoops old new).events = (changes old new).map inputEvent := by
  have hbuttons := events_foldl_updateButton old new (List.nodup_finRange 17)
    (u := ⟨old, [], false⟩) fun _ _ => rfl
  have haxes := events_foldl_updateAxis old new (List.nodup_finRange 4)
    (u := (List.finRange 17).foldl (updateButton new) ⟨old, [], false⟩)
    fun i _ => by rw [state_foldl_updateButton]
  rw [hbuttons, List.nil_append, ← List.map_append] at haxes
  exact haxes

/-- The session's model of the call writes the same events, and leaves the same mirror. -/
theorem gamepadUpdate_refines (gamepad : Gamepad) :
    (Input.gamepadUpdate gamepad new).state = (gamepadUpdate gamepad.state new).1 ∧
      (Input.gamepadUpdate gamepad new).written.map inputEvent =
        gamepad.written.map inputEvent ++ (gamepadUpdate gamepad.state new).2 := by
  have hwritten : (Input.gamepadUpdate gamepad new).written = gamepad.written ++
      changes gamepad.state new ++
        if (changes gamepad.state new).isEmpty then [] else [.synReport] := rfl
  have hchanged := changed_bothLoops gamepad.state new
  rw [events_bothLoops] at hchanged
  refine ⟨(gamepadUpdate_state gamepad new).trans (state_bothLoops gamepad.state new).symm, ?_⟩
  rw [hwritten, gamepadUpdate, List.map_append, List.map_append, List.append_assoc, events_bothLoops]
  dsimp only
  congr 1
  cases hevents : changes gamepad.state new with
  | nil =>
      rw [hevents] at hchanged
      rw [if_neg fun h => hchanged.mp h rfl]
      rfl
  | cons event events =>
      rw [hevents] at hchanged
      rw [if_pos (hchanged.mpr (by simp))]
      rfl

end GamepadEvents

end Stratus.Input
