import Mathlib.Data.List.FinRange

/-! `gamepad.c`: virtual gamepads. -/
namespace Stratus.Input

@[ext] structure GamepadState where
  buttons : Fin 17 → Bool
  axes : Fin 4 → Int

/-- What `libevdev_uinput_write_event` is called with. -/
inductive UinputEvent where
  | key (button : Fin 17) (pressed : Bool)
  | abs (axis : Fin 4) (value : Int)
  | synReport

/-- A `struct gamepad`; `written` is what its device has been sent. -/
structure Gamepad where
  state : GamepadState
  written : List UinputEvent

def gamepadInit : Gamepad where
  state := ⟨fun _ => false, fun _ => 0⟩
  written := []

def keyEvent (old new : GamepadState) (i : Fin 17) : Option UinputEvent :=
  if new.buttons i || old.buttons i then some (.key i (new.buttons i)) else none

def absEvent (old new : GamepadState) (i : Fin 4) : Option UinputEvent :=
  if new.axes i ≠ 0 ∨ old.axes i ≠ 0 then some (.abs i (new.axes i)) else none

/-- Its return value is left to the caller, who knows which writes fail. -/
def gamepadUpdate (gamepad : Gamepad) (new : GamepadState) : Gamepad :=
  let old := gamepad.state
  let events := (List.finRange 17).filterMap (keyEvent old new) ++
    (List.finRange 4).filterMap (absEvent old new)
  { state :=
      { buttons := fun i => if new.buttons i || old.buttons i then new.buttons i else old.buttons i
        axes := fun i => if new.axes i ≠ 0 ∨ old.axes i ≠ 0 then new.axes i else old.axes i }
    written := gamepad.written ++ events ++ if events.isEmpty then [] else [.synReport] }

/-- What is not written has not changed. -/
theorem gamepadUpdate_state (gamepad : Gamepad) (new : GamepadState) :
    (gamepadUpdate gamepad new).state = new := by
  ext i
  · simp only [gamepadUpdate]
    cases new.buttons i <;> cases gamepad.state.buttons i <;> rfl
  · simp only [gamepadUpdate]
    split
    · rfl
    · omega

end Stratus.Input
