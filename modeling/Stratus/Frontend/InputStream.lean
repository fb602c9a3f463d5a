import Mathlib.Data.List.OfFn
import Mathlib.Logic.Function.Basic

/-! `inputStream.ts`: the packets in which a client sends the state of its gamepads. -/
namespace Stratus.Frontend

/-- A button counts as pressed from 0.5 on; an axis is the pattern of its value as a
32-bit float. -/
structure GamepadState where
  clientIndex : Nat
  buttons : Fin 17 → Bool
  axes : Fin 4 → UInt32

/-- `view.setUint8(offset, button)`. -/
def buttonByte (pressed : Bool) : UInt8 := if pressed then 1 else 0

/-- `view.setFloat32(offset, axis, true)`. -/
def axisBytes (axis : UInt32) : List UInt8 :=
  [axis.toUInt8, (axis >>> 8).toUInt8, (axis >>> 16).toUInt8, (axis >>> 24).toUInt8]

/-- `none` where `assertByte` throws. -/
def encodeGamepadState (state : GamepadState) : Option (List UInt8) :=
  if 255 < state.clientIndex then none
  else
    some (UInt8.ofNat state.clientIndex ::
      ((List.ofFn state.buttons).map buttonByte ++ (List.ofFn state.axes).flatMap axisBytes))

abbrev LastSentPackets := Nat → Option (List UInt8)

/-- What `sendStateIfChanged` writes, and the packets that were last sent after that. -/
def sendStateIfChanged (lastSentPackets : LastSentPackets) (state : GamepadState) :
    Option (List (List UInt8) × LastSentPackets) :=
  (encodeGamepadState state).map fun payload =>
    if lastSentPackets state.clientIndex = some payload then ([], lastSentPackets)
    else ([payload], Function.update lastSentPackets state.clientIndex (some payload))

theorem length_encodeGamepadState {state : GamepadState} {payload : List UInt8}
    (h : encodeGamepadState state = some payload) : payload.length = 34 := by
  have haxes : ∀ axes : List UInt32, (axes.flatMap axisBytes).length = 4 * axes.length := by
    intro axes
    induction axes with
    | nil => rfl
    | cons axis axes ih =>
        rw [List.flatMap_cons, List.length_append, ih, List.length_cons]
        change 4 + _ = _
        omega
  simp only [encodeGamepadState] at h
  split at h
  · cases h
  · cases h
    simp only [List.length_cons, List.length_append, List.length_map, haxes, List.length_ofFn]

/-- The first byte of a packet is the index of the gamepad. -/
theorem head_encodeGamepadState {state : GamepadState} {payload : List UInt8}
    (h : encodeGamepadState state = some payload) :
    (payload.getD 0 0).toNat = state.clientIndex := by
  simp only [encodeGamepadState] at h
  split at h
  · cases h
  · cases h
    rw [List.getD_cons_zero, UInt8.toNat_ofNat', Nat.mod_eq_of_lt (by omega)]

end Stratus.Frontend
