import Mathlib.Data.List.Flatten
import Mathlib.Logic.Function.Basic
import Stratus.Input.Gamepad

/-! `Input.c`: input messages are cut into events. -/
namespace Stratus.Input

/-- A byte of the input stream, and which one it is. -/
structure StreamByte where
  value : UInt8
  position : Nat
deriving DecidableEq

abbrev Msg := List StreamByte

/-- The bytes of a stream from a position on. -/
def place : Nat → List UInt8 → List StreamByte
  | _, [] => []
  | position, value :: bytes => ⟨value, position⟩ :: place (position + 1) bytes

/-- A pointer of `gamepads[]`: memory from `malloc` may hold anything. -/
inductive Slot where
  | null
  | pad (gamepad : Gamepad)
  | garbage

/-- `events` is what `input_recv_event` has been called with. -/
structure InputSession where
  msgBuffer : List StreamByte
  gamepads : Fin 8 → Slot
  events : List (List StreamByte)

/-- What is not decided by this code: for each event whether creating a device and
writing to it succeed, and the conversion of a 32-bit float times 127 to an `int`. -/
structure Platform where
  create : Nat → Bool
  write : Nat → Bool
  axis : UInt32 → Int

/-- Success, failure, or access through a pointer that was never set. -/
inductive Outcome where
  | ok
  | failed
  | undefined
deriving DecidableEq

def inputPktLength : Nat := 34

/-- `((float*)(event + INPUT_PKT_AXES))[i]`, as a pattern. -/
def eventAxis (event : List UInt8) (i : Nat) : UInt32 :=
  ((event.getD (18 + 4 * i + 3) 0).toUInt32 <<< 24) |||
    ((event.getD (18 + 4 * i + 2) 0).toUInt32 <<< 16) |||
    ((event.getD (18 + 4 * i + 1) 0).toUInt32 <<< 8) ||| (event.getD (18 + 4 * i) 0).toUInt32

def parseState (platform : Platform) (event : List UInt8) : GamepadState where
  buttons := fun i => event.getD (1 + i.val) 0 ≠ 0
  axes := fun i => platform.axis (eventAxis event i.val)

/-- The gamepad that an event is for. -/
def deviceOf (event : List UInt8) : Nat := (event.getD 0 0).toNat

/-- `gamepad_init` on the first use of a slot. -/
def openSlot (create : Bool) : Slot → Slot
  | .null => if create then .pad gamepadInit else .null
  | slot => slot

section

variable (platform : Platform)

def inputRecvEvent (session : InputSession) (event : List StreamByte) : InputSession × Outcome :=
  let number := session.events.length
  let session := { session with events := session.events ++ [event] }
  let bytes := event.map StreamByte.value
  let idx := deviceOf bytes
  if h : idx < 8 then
    match openSlot (platform.create number) (session.gamepads ⟨idx, h⟩) with
    | .null => (session, .failed)
    | .garbage => (session, .undefined)
    | .pad gamepad =>
        ({ session with
            gamepads := Function.update session.gamepads ⟨idx, h⟩
              (.pad (gamepadUpdate gamepad (parseState platform bytes))) },
          if platform.write number then .ok else .failed)
  else (session, .ok)

/-- The event that `input_recv_raw` parses from the message itself. -/
def recvDirect (session : InputSession) (data : Msg) : InputSession × Outcome × Msg :=
  if session.msgBuffer.length = 0 ∧ inputPktLength ≤ data.length then
    let (session, outcome) := inputRecvEvent platform session (data.take inputPktLength)
    (session, outcome, data.drop inputPktLength)
  else (session, .ok, data)

/-- The loop that copies to `msg_buffer`. -/
def fillBuffer : List StreamByte → Msg → List StreamByte × Msg
  | buffer, [] => (buffer, [])
  | buffer, byte :: data =>
      if buffer.length < inputPktLength then fillBuffer (buffer ++ [byte]) data
      else (buffer, byte :: data)

def recvBuffered (session : InputSession) : InputSession × Outcome :=
  if session.msgBuffer.length = inputPktLength then
    match inputRecvEvent platform session session.msgBuffer with
    | (session, .ok) => ({ session with msgBuffer := [] }, .ok)
    | failure => failure
  else (session, .ok)

/-- The loop of `input_recv_raw`, for a number of rounds; `none` when it takes more. -/
def recvRounds : Nat → InputSession → Msg → Option (InputSession × Outcome)
  | 0, _, _ => none
  | rounds + 1, session, data =>
      match recvDirect platform session data with
      | (session, .ok, data) =>
          let (buffer, data) := fillBuffer session.msgBuffer data
          match recvBuffered platform { session with msgBuffer := buffer } with
          | (session, .ok) =>
              if data.length = 0 then some (session, .ok) else recvRounds rounds session data
          | failure => some failure
      | (session, failure, _) => some (session, failure)

/-- Every round takes a byte, so there are at most as many as the message has. -/
def inputRecvRaw (session : InputSession) (data : Msg) : Option (InputSession × Outcome) :=
  recvRounds platform (data.length + 1) session data

end

/-! ### How a message is cut -/

variable (platform : Platform) {session session₁ session₂ : InputSession} {data data₁ data₂ : Msg}

/-- From a session with a message at hand to one where `data₁` of it is left, `parsed`
being the events in between. -/
structure Cut (session : InputSession) (data : Msg) (session₁ : InputSession) (data₁ : Msg)
    (outcome : Outcome) (parsed : List (List StreamByte)) : Prop where
  length : ∀ event ∈ parsed, event.length = inputPktLength
  events : session₁.events = session.events ++ parsed
  bytes : parsed.flatten <+: session.msgBuffer ++ data
  rest : outcome = .ok → session.msgBuffer ++ data = parsed.flatten ++ (session₁.msgBuffer ++ data₁)

theorem Cut.trans {outcome : Outcome} {parsed₁ parsed₂ : List (List StreamByte)}
    (h₁ : Cut session data session₁ data₁ .ok parsed₁)
    (h₂ : Cut session₁ data₁ session₂ data₂ outcome parsed₂) :
    Cut session data session₂ data₂ outcome (parsed₁ ++ parsed₂) := by
  have hrest := h₁.rest rfl
  refine ⟨?_, ?_, ?_, ?_⟩
  · intro event hevent
    rcases List.mem_append.mp hevent with hevent | hevent
    · exact h₁.length event hevent
    · exact h₂.length event hevent
  · rw [h₂.events, h₁.events, List.append_assoc]
  · rw [List.flatten_append, hrest]
    exact (List.prefix_append_right_inj _).mpr h₂.bytes
  · intro hok
    rw [hrest, h₂.rest hok, List.flatten_append, List.append_assoc]

theorem Cut.ended {outcome : Outcome} {parsed : List (List StreamByte)}
    (h : Cut session data session₁ data₁ outcome parsed) (hfailed : outcome ≠ .ok) :
    Cut session data session₁ data₂ outcome parsed :=
  ⟨h.length, h.events, h.bytes, fun hok => absurd hok hfailed⟩

theorem inputRecvEvent_keeps (session : InputSession) (event : List StreamByte) :
    (inputRecvEvent platform session event).1.events = session.events ++ [event] ∧
      (inputRecvEvent platform session event).1.msgBuffer = session.msgBuffer := by
  unfold inputRecvEvent
  dsimp only
  split
  · split <;> exact ⟨rfl, rfl⟩
  · exact ⟨rfl, rfl⟩

theorem recvDirect_cut (session : InputSession) (data : Msg) :
    let result := recvDirect platform session data
    (∃ parsed, Cut session data result.1 result.2.2 result.2.1 parsed) ∧
      result.1.msgBuffer = session.msgBuffer ∧ result.2.2.length ≤ data.length := by
  obtain ⟨hevents, hbuffer⟩ :=
    inputRecvEvent_keeps platform session (data.take inputPktLength)
  unfold recvDirect
  split
  · next hdirect =>
    have hnil : session.msgBuffer = [] := List.length_eq_zero_iff.mp hdirect.1
    refine ⟨⟨[data.take inputPktLength], ?_, hevents, ?_, fun _ => ?_⟩, hbuffer, ?_⟩
    · intro event hevent
      rw [List.mem_singleton.mp hevent, List.length_take]
      exact Nat.min_eq_left hdirect.2
    · rw [List.flatten_singleton, hnil]
      exact List.take_prefix _ _
    · change _ = _ ++ ((inputRecvEvent platform session _).1.msgBuffer ++ _)
      rw [hbuffer, hnil, List.flatten_singleton]
      exact (List.take_append_drop _ _).symm
    · exact (List.length_drop (l := data)).symm ▸ Nat.sub_le _ _
  · exact ⟨⟨[], by simp, (List.append_nil _).symm, List.nil_prefix, fun _ => rfl⟩, rfl, le_rfl⟩

theorem fillBuffer_eq (buffer : List StreamByte) (data : Msg) (h : buffer.length ≤ inputPktLength) :
    fillBuffer buffer data = (buffer ++ data.take (inputPktLength - buffer.length),
      data.drop (inputPktLength - buffer.length)) := by
  induction data generalizing buffer with
  | nil => simp [fillBuffer]
  | cons byte data ih =>
      unfold fillBuffer
      split
      · next hlt =>
        have hsucc : inputPktLength - buffer.length = inputPktLength - (buffer ++ [byte]).length + 1 := by
          rw [List.length_append, List.length_singleton]
          omega
        rw [ih _ (by rw [List.length_append, List.length_singleton]; omega), hsucc,
          List.take_succ_cons, List.drop_succ_cons, List.append_assoc]
        rfl
      · next hfull =>
        rw [Nat.sub_eq_zero_of_le (by omega), List.take_zero, List.append_nil, List.drop_zero]

theorem fillBuffer_cut (session : InputSession) (data : Msg)
    (h : session.msgBuffer.length < inputPktLength) :
    let result := fillBuffer session.msgBuffer data
    Cut session data { session with msgBuffer := result.1 } result.2 .ok [] ∧
      result.1.length ≤ inputPktLength ∧ (result.2 = [] ∨ result.2.length < data.length) := by
  rw [fillBuffer_eq _ _ h.le]
  refine ⟨⟨by simp, (List.append_nil _).symm, List.nil_prefix, fun _ => ?_⟩, ?_, ?_⟩
  · rw [List.flatten_nil, List.nil_append, List.append_assoc, List.take_append_drop]
  · rw [List.length_append, List.length_take]
    omega
  · rw [List.drop_eq_nil_iff, List.length_drop]
    omega

theorem recvBuffered_cut (session : InputSession) (data : Msg)
    (h : session.msgBuffer.length ≤ inputPktLength) :
    let result := recvBuffered platform session
    (∃ parsed, Cut session data result.1 data result.2 parsed) ∧
      (result.2 = .ok → result.1.msgBuffer.length < inputPktLength) := by
  obtain ⟨hevents, hbuffer⟩ :=
    inputRecvEvent_keeps platform session session.msgBuffer
  unfold recvBuffered
  split
  · next hfull =>
    have hlength : ∀ event ∈ [session.msgBuffer], event.length = inputPktLength := by
      intro event hevent
      rw [List.mem_singleton.mp hevent, hfull]
    have hbytes : [session.msgBuffer].flatten <+: session.msgBuffer ++ data := by
      rw [List.flatten_singleton]
      exact List.prefix_append _ _
    split
    · next session₁ hrecv =>
      rw [hrecv] at hevents
      refine ⟨⟨[session.msgBuffer], hlength, hevents, hbytes, fun _ => ?_⟩, fun _ => ?_⟩
      · rw [List.flatten_singleton]
        rfl
      · exact Nat.zero_lt_succ _
    · next hfailure =>
      have hnot : (inputRecvEvent platform session session.msgBuffer).2 ≠ .ok :=
        fun hok => hfailure _ (Prod.ext rfl hok)
      exact ⟨⟨[session.msgBuffer], hlength, hevents, hbytes, fun hok => absurd hok hnot⟩,
        fun hok => absurd hok hnot⟩
  · exact ⟨⟨[], by simp, (List.append_nil _).symm, List.nil_prefix, fun _ => rfl⟩,
      fun _ => lt_of_le_of_ne h ‹_›⟩

/-- The loop ends, having cut the bytes in the buffer and those of the message into
events and what does not make one. -/
theorem recvRounds_cut (rounds : Nat) (session : InputSession) (data : Msg)
    (h : session.msgBuffer.length < inputPktLength) (hrounds : data.length < rounds) :
    ∃ session₁ outcome parsed, recvRounds platform rounds session data = some (session₁, outcome) ∧
      Cut session data session₁ [] outcome parsed ∧
      (outcome = .ok → session₁.msgBuffer.length < inputPktLength) := by
  induction rounds generalizing session data with
  | zero => omega
  | succ rounds ih =>
      obtain ⟨⟨parsed, hdirect⟩, hbuffer, hle⟩ := recvDirect_cut platform session data
      unfold recvRounds
      generalize recvDirect platform session data = direct at hdirect hbuffer hle
      obtain ⟨session₁, outcome₁, data₁⟩ := direct
      cases outcome₁ with
      | failed => exact ⟨session₁, _, parsed, rfl, hdirect.ended Outcome.noConfusion, by simp⟩
      | undefined => exact ⟨session₁, _, parsed, rfl, hdirect.ended Outcome.noConfusion, by simp⟩
      | ok =>
          replace hbuffer : session₁.msgBuffer = session.msgBuffer := hbuffer
          replace hle : data₁.length ≤ data.length := hle
          obtain ⟨hfill, hfull, hless⟩ := fillBuffer_cut session₁ data₁ (hbuffer ▸ h)
          dsimp only
          generalize fillBuffer session₁.msgBuffer data₁ = fill at hfill hfull hless
          obtain ⟨buffer, data₂⟩ := fill
          replace hless : data₂ = [] ∨ data₂.length < data₁.length := hless
          obtain ⟨⟨parsed', hbuffered⟩, hshort⟩ :=
            recvBuffered_cut platform { session₁ with msgBuffer := buffer } data₂ hfull
          dsimp only
          generalize recvBuffered platform { session₁ with msgBuffer := buffer } = buffered
            at hbuffered hshort
          obtain ⟨session₂, outcome₂⟩ := buffered
          have hcut := (hdirect.trans hfill).trans hbuffered
          cases outcome₂ with
          | failed => exact ⟨session₂, _, _, rfl, hcut.ended Outcome.noConfusion, by simp⟩
          | undefined => exact ⟨session₂, _, _, rfl, hcut.ended Outcome.noConfusion, by simp⟩
          | ok =>
              by_cases hmore : data₂.length = 0
              · refine ⟨session₂, .ok, parsed ++ [] ++ parsed', if_pos hmore, ?_, hshort⟩
                rwa [List.length_eq_zero_iff.mp hmore] at hcut
              · have hrest : data₂.length < rounds := by
                  rcases hless with rfl | hless
                  · exact absurd rfl hmore
                  · omega
                obtain ⟨session₃, outcome, parsed₃, heq, hcut₃, hshort₃⟩ :=
                  ih session₂ data₂ (hshort rfl) hrest
                exact ⟨session₃, outcome, _, (if_neg hmore).trans heq, hcut.trans hcut₃, hshort₃⟩

/-! ### A packet that is a message of its own -/

theorem inputRecvRaw_packet {msg : Msg} (hbuffer : session.msgBuffer = [])
    (hlength : msg.length = inputPktLength) :
    inputRecvRaw platform session msg = some (inputRecvEvent platform session msg) := by
  have hkeeps := (inputRecvEvent_keeps platform session msg).2
  have hdirect : recvDirect platform session msg =
      ((inputRecvEvent platform session msg).1, (inputRecvEvent platform session msg).2, []) := by
    unfold recvDirect
    rw [if_pos ⟨by rw [hbuffer]; rfl, hlength.ge⟩, List.take_of_length_le hlength.le,
      List.drop_eq_nil_of_le hlength.le]
  unfold inputRecvRaw recvRounds
  rw [hdirect]
  generalize inputRecvEvent platform session msg = result at hkeeps
  obtain ⟨session₁, outcome⟩ := result
  replace hkeeps : session₁.msgBuffer = [] := hkeeps.trans hbuffer
  cases outcome with
  | failed => rfl
  | undefined => rfl
  | ok =>
      obtain ⟨buffer, gamepads, events⟩ := session₁
      cases hkeeps
      rfl

/-- An event updates the gamepad it is for, unless something fails. -/
theorem inputRecvEvent_gamepads {event : List StreamByte}
    (hslots : ∀ i, session.gamepads i ≠ .garbage)
    (hdevice : deviceOf (event.map StreamByte.value) < 8) :
    let result := inputRecvEvent platform session event
    result.2 ≠ .undefined ∧ (∀ i, result.1.gamepads i ≠ .garbage) ∧
      (∀ i, i.val ≠ deviceOf (event.map StreamByte.value) →
        result.1.gamepads i = session.gamepads i) ∧
      (result.2 = .ok → ∃ gamepad,
        result.1.gamepads ⟨deviceOf (event.map StreamByte.value), hdevice⟩ = .pad gamepad ∧
          gamepad.state = parseState platform (event.map StreamByte.value)) := by
  unfold inputRecvEvent
  dsimp only
  rw [dif_pos hdevice]
  split
  · exact ⟨Outcome.noConfusion, hslots, fun _ _ => rfl, fun hok => by cases hok⟩
  · next hopen =>
    have hold := hslots ⟨_, hdevice⟩
    cases hslot : session.gamepads ⟨deviceOf (event.map StreamByte.value), hdevice⟩ with
    | null => rw [hslot, openSlot] at hopen; split at hopen <;> cases hopen
    | pad gamepad => rw [hslot] at hopen; cases hopen
    | garbage => exact absurd hslot hold
  · next gamepad hopen =>
    refine ⟨?_, ?_, ?_, fun _ => ⟨_, Function.update_self .., gamepadUpdate_state ..⟩⟩
    · dsimp only
      split <;> exact Outcome.noConfusion
    · intro i
      dsimp only
      by_cases hi : i = ⟨deviceOf (event.map StreamByte.value), hdevice⟩
      · rw [hi, Function.update_self]
        exact Slot.noConfusion
      · rw [Function.update_of_ne hi]
        exact hslots i
    · intro i hi
      exact Function.update_of_ne (fun heq => hi (congrArg Fin.val heq)) ..

end Stratus.Input
