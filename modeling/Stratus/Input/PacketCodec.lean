import Mathlib.Data.List.GetD
import Stratus.Frontend.InputStream
import Stratus.Input.Session
import Stratus.Lib.Word

/-! `encodeGamepadState` of the client and the parser of `input_recv_event` agree. -/
namespace Stratus.Input

open Stratus.Lib Stratus.Frontend

theorem u32_of_axisBytes (axis : UInt32) :
    ((axis >>> 24).toUInt8.toUInt32 <<< 24) ||| ((axis >>> 16).toUInt8.toUInt32 <<< 16) |||
      ((axis >>> 8).toUInt8.toUInt32 <<< 8) ||| axis.toUInt8.toUInt32 = axis := by
  apply UInt32.toNat.inj
  have hlt := axis.toNat_lt
  rw [u32_of_bytes]
  have h₁ : (axis >>> 8).toNat = axis.toNat / 2 ^ 8 := by
    rw [UInt32.toNat_shiftRight, Nat.shiftRight_eq_div_pow]
    rfl
  have h₂ : (axis >>> 16).toNat = axis.toNat / 2 ^ 16 := by
    rw [UInt32.toNat_shiftRight, Nat.shiftRight_eq_div_pow]
    rfl
  have h₃ : (axis >>> 24).toNat = axis.toNat / 2 ^ 24 := by
    rw [UInt32.toNat_shiftRight, Nat.shiftRight_eq_div_pow]
    rfl
  simp only [UInt32.toNat_toUInt8, h₁, h₂, h₃]
  omega

variable {state : Frontend.GamepadState} {payload : List UInt8}

theorem deviceOf_encode (h : encodeGamepadState state = some payload) :
    deviceOf payload = state.clientIndex :=
  head_encodeGamepadState h

theorem button_encode (h : encodeGamepadState state = some payload) (i : Fin 17) :
    payload.getD (1 + i.val) 0 = buttonByte (state.buttons i) := by
  simp only [encodeGamepadState] at h
  split at h
  · cases h
  · cases h
    have hlength : i.val < ((List.ofFn state.buttons).map buttonByte).length := by simp
    rw [Nat.add_comm, List.getD_cons_succ, List.getD_append _ _ _ _ hlength,
      List.getD_eq_getElem _ _ hlength, List.getElem_map, List.getElem_ofFn]

theorem axisBytes_encode (h : encodeGamepadState state = some payload) (k : Nat) :
    payload.getD (18 + k) 0 = ((List.ofFn state.axes).flatMap axisBytes).getD k 0 := by
  simp only [encodeGamepadState] at h
  split at h
  · cases h
  · cases h
    have hlength : ((List.ofFn state.buttons).map buttonByte).length = 17 := by simp
    rw [show 18 + k = 17 + k + 1 by omega, List.getD_cons_succ,
      List.getD_append_right _ _ _ _ (by omega), hlength, Nat.add_sub_cancel_left]

theorem axis_encode (h : encodeGamepadState state = some payload) (i : Fin 4) :
    eventAxis payload i.val = state.axes i := by
  unfold eventAxis
  rw [Nat.add_assoc, Nat.add_assoc, Nat.add_assoc, axisBytes_encode h, axisBytes_encode h,
    axisBytes_encode h, axisBytes_encode h,
    show List.ofFn state.axes = [state.axes 0, state.axes 1, state.axes 2, state.axes 3] from rfl]
  match i with
  | 0 => exact u32_of_axisBytes _
  | 1 => exact u32_of_axisBytes _
  | 2 => exact u32_of_axisBytes _
  | 3 => exact u32_of_axisBytes _

/-- The server's state of the gamepad is the client's. -/
theorem parseState_encode (platform : Platform) (h : encodeGamepadState state = some payload) :
    parseState platform payload =
      { buttons := state.buttons, axes := fun i => platform.axis (state.axes i) } := by
  ext i
  · change decide (payload.getD (1 + i.val) 0 ≠ 0) = state.buttons i
    rw [button_encode h]
    cases state.buttons i with
    | false => rfl
    | true => rfl
  · change platform.axis (eventAxis payload i.val) = _
    rw [axis_encode h]

end Stratus.Input
