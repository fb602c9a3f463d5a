import Stratus.Input.PacketCodec
import Stratus.Input.WholePackets
import Stratus.Lib.Splice

/-! `input_recv_raw` on the arrays that it reads and writes. -/
namespace Stratus.Input

open Stratus.Lib

/-! ### Reading an event from an array -/

/-- `none` is a byte outside of the array. -/
def byteAt (array : Msg) (i : Nat) : Option UInt8 := array[i]?.map StreamByte.value

def axisAt (array : Msg) (i : Nat) : Option UInt32 := do
  let low ← byteAt array i
  let second ← byteAt array (i + 1)
  let third ← byteAt array (i + 2)
  let high ← byteAt array (i + 3)
  return (high.toUInt32 <<< 24) ||| (third.toUInt32 <<< 16) ||| (second.toUInt32 <<< 8) |||
    low.toUInt32

/-- All values of a loop. -/
def readAll {α : Type} {n : Nat} (read : Fin n → Option α) : Option (Fin n → α) :=
  if h : ∀ i, (read i).isSome then some fun i => (read i).get (h i) else none

theorem readAll_eq {α : Type} {n : Nat} {read : Fin n → Option α} {value : Fin n → α}
    (h : ∀ i, read i = some (value i)) : readAll read = some value := by
  have hread : read = fun i => some (value i) := funext h
  subst hread
  exact dif_pos fun _ => rfl

/-- `input_recv_event` on the array that `event` points into. -/
def inputRecvEventAt (platform : Platform) (session : InputSession) (array : Msg) (event : Nat) :
    Option (InputSession × Outcome) := do
  let number := session.events.length
  let session := { session with events := session.events ++ [slice array event inputPktLength] }
  let idx ← byteAt array event
  if h : idx.toNat < 8 then
    match openSlot (platform.create number) (session.gamepads ⟨idx.toNat, h⟩) with
    | .null => return (session, .failed)
    | .garbage => return (session, .undefined)
    | .pad gamepad =>
        let buttons ← readAll fun i : Fin 17 => byteAt array (event + (1 + i.val))
        let axes ← readAll fun i : Fin 4 => axisAt array (event + (18 + 4 * i.val))
        let state : GamepadState :=
          { buttons := fun i => buttons i ≠ 0, axes := fun i => platform.axis (axes i) }
        return ({ session with
            gamepads := Function.update session.gamepads ⟨idx.toNat, h⟩
              (.pad (gamepadUpdate gamepad state)) },
          if platform.write number then .ok else .failed)
  else return (session, .ok)

section Reading

variable {array : Msg} {event : Nat}

theorem byteAt_slice (h : event + inputPktLength ≤ array.length) {i : Nat} (hi : i < inputPktLength) :
    byteAt array (event + i) =
      some (((slice array event inputPktLength).map StreamByte.value).getD i 0) := by
  have hlt : event + i < array.length := by omega
  rw [byteAt, List.getElem?_eq_getElem hlt, Option.map_some, slice, List.map_take, List.map_drop,
    List.getD_eq_getElem?_getD, List.getElem?_take_of_lt hi, List.getElem?_drop, List.getElem?_map,
    List.getElem?_eq_getElem hlt]
  rfl

theorem axisAt_slice (h : event + inputPktLength ≤ array.length) (i : Fin 4) :
    axisAt array (event + (18 + 4 * i.val)) =
      some (eventAxis ((slice array event inputPktLength).map StreamByte.value) i.val) := by
  have hi := i.isLt
  have hbyte (k : Nat) (hk : k < 4) := byteAt_slice h (i := 18 + 4 * i.val + k) (by
    unfold inputPktLength
    omega)
  have h₀ := hbyte 0 (by omega)
  have h₁ := hbyte 1 (by omega)
  have h₂ := hbyte 2 (by omega)
  have h₃ := hbyte 3 (by omega)
  simp only [← Nat.add_assoc, Nat.add_zero] at h₀ h₁ h₂ h₃ ⊢
  simp only [axisAt, h₀, h₁, h₂, h₃]
  rfl

/-- An event that lies inside of the array. -/
theorem inputRecvEventAt_eq (platform : Platform) (session : InputSession)
    (h : event + inputPktLength ≤ array.length) :
    inputRecvEventAt platform session array event =
      some (inputRecvEvent platform session (slice array event inputPktLength)) := by
  have hdevice := byteAt_slice h (i := 0) (by decide)
  have hbuttons := readAll_eq fun i : Fin 17 => byteAt_slice h (i := 1 + i.val) (by
    unfold inputPktLength
    omega)
  have haxes := readAll_eq fun i : Fin 4 => axisAt_slice h i
  unfold inputRecvEventAt
  dsimp only
  rw [Nat.add_zero] at hdevice
  rw [hdevice, hbuttons, haxes]
  unfold inputRecvEvent deviceOf
  simp only [Option.bind_eq_bind, Option.bind_some]
  split
  · next hlt =>
    cases openSlot (platform.create session.events.length) (session.gamepads ⟨_, hlt⟩) with
    | null => rfl
    | garbage => rfl
    | pad gamepad => rfl
  · rfl

end Reading

/-! ### The loop over a message -/

/-- `msgBuffer` is the whole array, of which `msgBufferLen` bytes are in use. -/
structure RawSession extends InputSession where
  msgBufferLen : Nat

/-- `msg->data` as a place in the message, and `msg->length`. -/
structure RawMsg where
  bytes : Msg
  data : Nat
  length : Nat

/-- A message as the transport hands it over. -/
def RawMsg.whole (bytes : Msg) : RawMsg where
  bytes := bytes
  data := 0
  length := bytes.length

section Loop

variable (platform : Platform)

def recvDirectAt (session : RawSession) (msg : RawMsg) : Option (RawSession × Outcome × RawMsg) :=
  if session.msgBufferLen = 0 ∧ inputPktLength ≤ msg.length then do
    let (inner, outcome) ← inputRecvEventAt platform session.toInputSession msg.bytes msg.data
    let session := { session with toInputSession := inner }
    match outcome with
    | .ok =>
        return (session, .ok,
          { msg with data := msg.data + inputPktLength, length := msg.length - inputPktLength })
    | failure => return (session, failure, msg)
  else some (session, .ok, msg)

/-- `session->msg_buffer[session->msg_buffer_len++] = byte`. -/
def storeByte (session : RawSession) (byte : StreamByte) : Option RawSession :=
  if session.msgBufferLen < session.msgBuffer.length then
    some { session with
      msgBuffer := session.msgBuffer.set session.msgBufferLen byte
      msgBufferLen := session.msgBufferLen + 1 }
  else none

/-- The loop that copies to `msg_buffer`, for a message of a length. -/
def fillBufferAt (bytes : Msg) : Nat → Nat → RawSession → Option (RawSession × RawMsg)
  | 0, data, session => some (session, ⟨bytes, data, 0⟩)
  | length + 1, data, session =>
      if session.msgBufferLen < inputPktLength then do
        let byte ← bytes[data]?
        let session ← storeByte session byte
        fillBufferAt bytes length (data + 1) session
      else some (session, ⟨bytes, data, length + 1⟩)

def recvBufferedAt (session : RawSession) : Option (RawSession × Outcome) :=
  if session.msgBufferLen = inputPktLength then do
    let (inner, outcome) ← inputRecvEventAt platform session.toInputSession session.msgBuffer 0
    let session := { session with toInputSession := inner }
    match outcome with
    | .ok => return ({ session with msgBufferLen := 0 }, .ok)
    | failure => return (session, failure)
  else some (session, .ok)

/-- What a call leaves. -/
structure Return where
  session : RawSession
  msg : RawMsg
  outcome : Outcome

/-- The loop of `input_recv_raw`, for a number of rounds; `none` when it takes more or leaves
an array. -/
def recvRoundsAt : Nat → RawSession → RawMsg → Option Return
  | 0, _, _ => none
  | rounds + 1, session, msg => do
      let (session, outcome, msg) ← recvDirectAt platform session msg
      match outcome with
      | .ok =>
          let (session, msg) ← fillBufferAt msg.bytes msg.length msg.data session
          let (session, outcome) ← recvBufferedAt platform session
          match outcome with
          | .ok => if msg.length = 0 then some ⟨session, msg, .ok⟩ else recvRoundsAt rounds session msg
          | failure => some ⟨session, msg, failure⟩
      | failure => some ⟨session, msg, failure⟩

def inputRecvRawAt (session : RawSession) (bytes : Msg) : Option Return :=
  recvRoundsAt platform (bytes.length + 1) session (.whole bytes)

/-- Messages are handled one after the other, until one fails. -/
def recvMessages : List Msg → RawSession → Option (List Return × RawSession × Outcome)
  | [], session => some ([], session, .ok)
  | bytes :: messages, session => do
      let result ← inputRecvRawAt platform session bytes
      match result.outcome with
      | .ok =>
          let (results, session, outcome) ← recvMessages messages result.session
          return (result :: results, session, outcome)
      | failure => return ([result], result.session, failure)

end Loop

/-! ### The arrays are not left -/

/-- The session without what is not in use. -/
def RawSession.view (session : RawSession) : InputSession :=
  { session.toInputSession with msgBuffer := session.msgBuffer.take session.msgBufferLen }

/-- What is left of a message. -/
def RawMsg.rest (msg : RawMsg) : Msg := msg.bytes.drop msg.data

structure RawSession.Inside (session : RawSession) : Prop where
  array : session.msgBuffer.length = inputPktLength
  used : session.msgBufferLen ≤ inputPktLength

def RawMsg.Inside (msg : RawMsg) : Prop := msg.data + msg.length = msg.bytes.length

variable {platform : Platform} {session : RawSession} {msg : RawMsg}

theorem RawMsg.length_rest (h : msg.Inside) : msg.rest.length = msg.length := by
  rw [RawMsg.Inside] at h
  rw [RawMsg.rest, List.length_drop]
  omega

theorem RawSession.length_view (h : session.Inside) :
    session.view.msgBuffer.length = session.msgBufferLen := by
  have harray := h.array
  have hused := h.used
  change (session.msgBuffer.take session.msgBufferLen).length = session.msgBufferLen
  rw [List.length_take]
  omega

/-- What is in `msg_buffer` does not matter to `input_recv_event`. -/
theorem inputRecvEvent_msgBuffer (platform : Platform) (session : InputSession) (buffer event : Msg) :
    inputRecvEvent platform { session with msgBuffer := buffer } event =
      ({ (inputRecvEvent platform session event).1 with msgBuffer := buffer },
        (inputRecvEvent platform session event).2) := by
  unfold inputRecvEvent
  dsimp only
  split
  · next h =>
    cases openSlot (platform.create session.events.length) (session.gamepads ⟨_, h⟩) with
    | null => rfl
    | garbage => rfl
    | pad gamepad => rfl
  · rfl

/-- `input_recv_event` in a session whose buffer is an array, which it does not touch. -/
theorem inputRecvEventAt_view (platform : Platform) (session : RawSession) {array : Msg} {event : Nat}
    (h : event + inputPktLength ≤ array.length) :
    ∃ inner outcome, inputRecvEventAt platform session.toInputSession array event =
        some (inner, outcome) ∧ inner.msgBuffer = session.msgBuffer ∧
      inputRecvEvent platform session.view (slice array event inputPktLength) =
        (RawSession.view { session with toInputSession := inner }, outcome) := by
  have hkeeps := (inputRecvEvent_keeps platform session.toInputSession
    (slice array event inputPktLength)).2
  have hview : inputRecvEvent platform session.view (slice array event inputPktLength) = _ :=
    inputRecvEvent_msgBuffer platform session.toInputSession
      (session.msgBuffer.take session.msgBufferLen) _
  rw [inputRecvEventAt_eq platform session.toInputSession h, hview]
  cases hevent : inputRecvEvent platform session.toInputSession
      (slice array event inputPktLength) with
  | mk inner outcome =>
      rw [hevent] at hkeeps
      refine ⟨inner, outcome, rfl, hkeeps, ?_⟩
      rw [RawSession.view, hkeeps]

theorem recvDirectAt_eq (platform : Platform) (h : session.Inside) (hmsg : msg.Inside) :
    ∃ session' msg', recvDirectAt platform session msg =
        some (session', (recvDirect platform session.view msg.rest).2.1, msg') ∧
      session'.view = (recvDirect platform session.view msg.rest).1 ∧
      session'.msgBuffer = session.msgBuffer ∧ session'.msgBufferLen = session.msgBufferLen ∧
      msg'.Inside ∧ ((recvDirect platform session.view msg.rest).2.1 = .ok →
        msg'.rest = (recvDirect platform session.view msg.rest).2.2) := by
  have hlength := RawMsg.length_rest hmsg
  have hview := RawSession.length_view h
  unfold recvDirectAt recvDirect
  rw [hview, hlength]
  split
  · next hdirect =>
    rw [RawMsg.Inside] at hmsg
    obtain ⟨inner, outcome, hevent, hkeeps, hview⟩ := inputRecvEventAt_view platform session
      (by omega : msg.data + inputPktLength ≤ msg.bytes.length)
    change inputRecvEvent platform session.view (msg.rest.take inputPktLength) = _ at hview
    simp only [hevent, hview, Option.bind_eq_bind, Option.bind_some]
    cases outcome with
    | ok =>
        refine ⟨_, _, rfl, rfl, hkeeps, rfl, ?_, fun _ => List.drop_drop.symm⟩
        change msg.data + inputPktLength + (msg.length - inputPktLength) = msg.bytes.length
        omega
    | failed => exact ⟨_, msg, rfl, rfl, hkeeps, rfl, hmsg, nofun⟩
    | undefined => exact ⟨_, msg, rfl, rfl, hkeeps, rfl, hmsg, nofun⟩
  · exact ⟨session, msg, rfl, rfl, rfl, rfl, hmsg, fun _ => rfl⟩

theorem fillBufferAt_eq (bytes : Msg) (length data : Nat) (session : RawSession) (h : session.Inside)
    (hmsg : data + length = bytes.length) :
    ∃ session' msg', fillBufferAt bytes length data session = some (session', msg') ∧
      session'.Inside ∧ msg'.Inside ∧ session'.view =
        { session.view with msgBuffer := (fillBuffer session.view.msgBuffer (bytes.drop data)).1 } ∧
      msg'.rest = (fillBuffer session.view.msgBuffer (bytes.drop data)).2 := by
  induction length generalizing data session with
  | zero =>
      have hnil : bytes.drop data = [] := List.drop_eq_nil_of_le (by omega)
      rw [hnil]
      exact ⟨session, _, rfl, h, hmsg, rfl, hnil⟩
  | succ length ih =>
      have hlt : data < bytes.length := by omega
      have hview := RawSession.length_view h
      have harray := h.array
      rw [List.drop_eq_getElem_cons hlt]
      unfold fillBufferAt fillBuffer
      rw [hview]
      split
      · next hroom =>
        have hstore : storeByte session bytes[data] = some { session with
            msgBuffer := session.msgBuffer.set session.msgBufferLen bytes[data]
            msgBufferLen := session.msgBufferLen + 1 } := if_pos (by omega)
        rw [List.getElem?_eq_getElem hlt]
        simp only [Option.bind_eq_bind, Option.bind_some, hstore]
        obtain ⟨session', msg', heq, hinside, hinside', hview', hrest⟩ := ih (data + 1)
          { session with
            msgBuffer := session.msgBuffer.set session.msgBufferLen bytes[data]
            msgBufferLen := session.msgBufferLen + 1 }
          ⟨by rw [List.length_set, harray], by change _ + 1 ≤ _; omega⟩ (by omega)
        have hnext : RawSession.view { session with
            msgBuffer := session.msgBuffer.set session.msgBufferLen bytes[data]
            msgBufferLen := session.msgBufferLen + 1 } =
            { session.view with msgBuffer := session.view.msgBuffer ++ [bytes[data]] } := by
          rw [RawSession.view, List.take_succ_eq_append_getElem (by rw [List.length_set]; omega),
            List.take_set_of_le le_rfl, List.getElem_set_self]
          rfl
        rw [hnext] at hview' hrest
        exact ⟨session', msg', heq, hinside, hinside', hview', hrest⟩
      · refine ⟨session, _, rfl, h, hmsg, rfl, ?_⟩
        exact List.drop_eq_getElem_cons hlt

theorem recvBufferedAt_eq (platform : Platform) (h : session.Inside) :
    ∃ session', recvBufferedAt platform session =
        some (session', (recvBuffered platform session.view).2) ∧
      session'.view = (recvBuffered platform session.view).1 ∧ session'.Inside := by
  have hview := RawSession.length_view h
  unfold recvBufferedAt recvBuffered
  rw [hview]
  split
  · next hfull =>
    obtain ⟨inner, outcome, hevent, hkeeps, hview⟩ := inputRecvEventAt_view platform session
      (by rw [h.array]; omega : 0 + inputPktLength ≤ session.msgBuffer.length)
    have hslice : slice session.msgBuffer 0 inputPktLength = session.view.msgBuffer := by
      change _ = session.msgBuffer.take session.msgBufferLen
      rw [slice, List.drop_zero, hfull]
    rw [hslice] at hview
    have harray : inner.msgBuffer.length = inputPktLength := hkeeps ▸ h.array
    simp only [hevent, hview, Option.bind_eq_bind, Option.bind_some]
    cases outcome with
    | ok => exact ⟨_, rfl, rfl, harray, Nat.zero_le _⟩
    | failed => exact ⟨_, rfl, rfl, harray, h.used⟩
    | undefined => exact ⟨_, rfl, rfl, harray, h.used⟩
  · exact ⟨session, rfl, rfl, h⟩

/-- The loop on the arrays does what the loop on lists does. -/
theorem recvRoundsAt_eq (rounds : Nat) (h : session.Inside) (hmsg : msg.Inside) {inner : InputSession}
    {outcome : Outcome}
    (hrounds : recvRounds platform rounds session.view msg.rest = some (inner, outcome)) :
    ∃ result, recvRoundsAt platform rounds session msg = some result ∧ result.session.view = inner ∧
      result.outcome = outcome ∧ (outcome = .ok → result.session.Inside ∧ result.msg.length = 0) := by
  induction rounds generalizing session msg with
  | zero => cases hrounds
  | succ rounds ih =>
      obtain ⟨session₁, msg₁, hdirect, hview₁, hbuffer₁, hlen₁, hmsg₁, hrest₁⟩ :=
        recvDirectAt_eq platform h hmsg
      have h₁ : session₁.Inside := ⟨by rw [hbuffer₁, h.array], by rw [hlen₁]; exact h.used⟩
      unfold recvRounds at hrounds
      unfold recvRoundsAt
      rw [hdirect]
      generalize recvDirect platform session.view msg.rest = direct at hrounds hview₁ hrest₁
      obtain ⟨inner₁, outcome₁, rest₁⟩ := direct
      simp only [Option.bind_eq_bind, Option.bind_some]
      cases outcome₁ with
      | failed =>
          cases hrounds
          exact ⟨_, rfl, hview₁, rfl, by rintro ⟨⟩⟩
      | undefined =>
          cases hrounds
          exact ⟨_, rfl, hview₁, rfl, by rintro ⟨⟩⟩
      | ok =>
          obtain rfl : session₁.view = inner₁ := hview₁
          obtain rfl : msg₁.rest = rest₁ := hrest₁ rfl
          obtain ⟨session₂, msg₂, hfill, h₂, hmsg₂, hview₂, hrest₂⟩ :=
            fillBufferAt_eq msg₁.bytes msg₁.length msg₁.data session₁ h₁ hmsg₁
          obtain ⟨session₃, hbuffered, hview₃, h₃⟩ := recvBufferedAt_eq platform h₂
          simp only [hfill, hbuffered, Option.bind_some]
          dsimp only [RawMsg.rest] at hrounds
          rw [← hview₂] at hrounds
          generalize recvBuffered platform session₂.view = buffered at hrounds hview₃ ⊢
          obtain ⟨inner₃, outcome₃⟩ := buffered
          cases outcome₃ with
          | failed =>
              cases hrounds
              exact ⟨_, rfl, hview₃, rfl, by rintro ⟨⟩⟩
          | undefined =>
              cases hrounds
              exact ⟨_, rfl, hview₃, rfl, by rintro ⟨⟩⟩
          | ok =>
              obtain rfl : session₃.view = inner₃ := hview₃
              change (if (fillBuffer session₁.view.msgBuffer (msg₁.bytes.drop msg₁.data)).2.length = 0
                then some (session₃.view, Outcome.ok)
                else recvRounds platform rounds session₃.view
                  (fillBuffer session₁.view.msgBuffer (msg₁.bytes.drop msg₁.data)).2) = _ at hrounds
              rw [← hrest₂, RawMsg.length_rest hmsg₂] at hrounds
              dsimp only
              by_cases hmore : msg₂.length = 0
              · rw [if_pos hmore] at hrounds ⊢
                cases hrounds
                exact ⟨_, rfl, rfl, rfl, fun _ => ⟨h₃, hmore⟩⟩
              · rw [if_neg hmore] at hrounds ⊢
                exact ih h₃ hmsg₂ hrounds

/-! ### The events -/

/-- `input_recv_event` on one event after the other, until one fails. -/
def recvEvents (platform : Platform) : List Msg → InputSession → InputSession × Outcome
  | [], session => (session, .ok)
  | event :: events, session =>
      match inputRecvEvent platform session event with
      | (session, .ok) => recvEvents platform events session
      | failure => failure

theorem recvEvents_append (platform : Platform) (events events' : List Msg) (session : InputSession) :
    recvEvents platform (events ++ events') session =
      match recvEvents platform events session with
      | (session, .ok) => recvEvents platform events' session
      | failure => failure := by
  induction events generalizing session with
  | nil => rfl
  | cons event events ih =>
      rw [List.cons_append, recvEvents, recvEvents]
      cases hevent : inputRecvEvent platform session event with
      | mk session' outcome =>
          cases outcome with
          | ok => exact ih session'
          | failed => rfl
          | undefined => rfl

theorem recvEvents_msgBuffer (platform : Platform) (events : List Msg) (session : InputSession)
    (buffer : Msg) :
    recvEvents platform events { session with msgBuffer := buffer } =
      ({ (recvEvents platform events session).1 with msgBuffer := buffer },
        (recvEvents platform events session).2) := by
  induction events generalizing session with
  | nil => rfl
  | cons event events ih =>
      rw [recvEvents, recvEvents, inputRecvEvent_msgBuffer]
      cases hevent : inputRecvEvent platform session event with
      | mk session' outcome =>
          cases outcome with
          | ok => exact ih session'
          | failed => rfl
          | undefined => rfl

/-- A session that has come as far as these events bring it, with something in its buffer. -/
def After (platform : Platform) (events : List Msg) (session session' : InputSession)
    (outcome : Outcome) : Prop :=
  session'.gamepads = (recvEvents platform events session).1.gamepads ∧
    session'.events = (recvEvents platform events session).1.events ∧
    outcome = (recvEvents platform events session).2

section After

variable {events events' : List Msg} {inner inner₁ inner₂ : InputSession} {outcome : Outcome}

theorem After.trans (h₁ : After platform events inner inner₁ .ok)
    (h₂ : After platform events' inner₁ inner₂ outcome) :
    After platform (events ++ events') inner inner₂ outcome := by
  obtain ⟨hgamepads, hevents, hok⟩ := h₁
  have hinner : inner₁ =
      { (recvEvents platform events inner).1 with msgBuffer := inner₁.msgBuffer } := by
    dsimp only
    rw [← hgamepads, ← hevents]
  have happend : recvEvents platform (events ++ events') inner =
      recvEvents platform events' (recvEvents platform events inner).1 := by
    rw [recvEvents_append]
    generalize recvEvents platform events inner = result at hok
    obtain ⟨session', outcome'⟩ := result
    cases hok
    rfl
  rw [After, hinner, recvEvents_msgBuffer] at h₂
  rw [After, happend]
  exact h₂

theorem After.ended (h : After platform events inner inner₁ outcome) (hfailed : outcome ≠ .ok) :
    After platform (events ++ events') inner inner₁ outcome := by
  obtain ⟨hgamepads, hevents, rfl⟩ := h
  have happend : recvEvents platform (events ++ events') inner = recvEvents platform events inner := by
    rw [recvEvents_append]
    generalize recvEvents platform events inner = result at hfailed
    obtain ⟨session', outcome'⟩ := result
    cases outcome' with
    | ok => exact absurd rfl hfailed
    | failed => rfl
    | undefined => rfl
  rw [After, happend]
  exact ⟨hgamepads, hevents, rfl⟩

theorem After.event {event : Msg} {result : InputSession × Outcome}
    (h : inputRecvEvent platform inner event = result) :
    After platform [event] inner result.1 result.2 := by
  obtain ⟨session', outcome'⟩ := result
  unfold After recvEvents
  rw [h]
  cases outcome' with
  | ok => exact ⟨rfl, rfl, rfl⟩
  | failed => exact ⟨rfl, rfl, rfl⟩
  | undefined => exact ⟨rfl, rfl, rfl⟩

/-- Only the buffer differs. -/
theorem After.buffer (buffer : Msg) (h : After platform events inner inner₁ outcome) :
    After platform events inner { inner₁ with msgBuffer := buffer } outcome := h

theorem After.nil (inner : InputSession) : After platform [] inner inner .ok := ⟨rfl, rfl, rfl⟩

end After

/-! ### Bytes that are cut into events -/

/-- The bytes are those of these events, and `tail`. -/
structure Pieces (bytes : Msg) (events : List Msg) (tail : Msg) : Prop where
  bytes : bytes = events.flatten ++ tail
  events : ∀ event ∈ events, event.length = inputPktLength
  tail : tail.length < inputPktLength

section Pieces

variable {bytes tail : Msg} {events : List Msg}

theorem Pieces.first (h : Pieces bytes events tail) (hlength : inputPktLength ≤ bytes.length) :
    ∃ event rest, events = event :: rest ∧ bytes.take inputPktLength = event ∧
      Pieces (bytes.drop inputPktLength) rest tail := by
  obtain ⟨rfl, hevents, htail⟩ := h
  cases events with
  | nil =>
      rw [List.flatten_nil, List.nil_append] at hlength
      omega
  | cons event rest =>
      have hevent : event.length = inputPktLength := hevents event (.head _)
      rw [List.flatten_cons, List.append_assoc, ← hevent, List.take_left, List.drop_left]
      exact ⟨event, rest, rfl, rfl, rfl, fun event hmem => hevents event (.tail _ hmem), htail⟩

theorem Pieces.short (h : Pieces bytes events tail) (hlength : bytes.length < inputPktLength) :
    events = [] ∧ bytes = tail := by
  obtain ⟨rfl, hevents, htail⟩ := h
  cases events with
  | nil => exact ⟨rfl, rfl⟩
  | cons event rest =>
      have hevent : event.length = inputPktLength := hevents event (.head _)
      rw [List.flatten_cons, List.length_append, List.length_append] at hlength
      omega

/-- The events of the bytes in front are the first ones. -/
theorem Pieces.split {front back : Msg} (h : Pieces (front ++ back) events tail) :
    ∃ before rest middle, events = before ++ rest ∧ Pieces front before middle ∧
      Pieces (middle ++ back) rest tail := by
  induction events generalizing front with
  | nil =>
      have hbytes := congrArg List.length h.bytes
      have htail := h.tail
      rw [List.flatten_nil, List.nil_append, List.length_append] at hbytes
      exact ⟨[], [], front, rfl, ⟨rfl, nofun, by omega⟩, h⟩
  | cons event events ih =>
      by_cases hshort : front.length < inputPktLength
      · exact ⟨[], event :: events, front, rfl, ⟨rfl, nofun, hshort⟩, h⟩
      · rw [Nat.not_lt] at hshort
        obtain ⟨_, _, heq, hevent, hrest⟩ := h.first (by rw [List.length_append]; omega)
        cases heq
        rw [List.take_append_of_le_length hshort] at hevent
        rw [List.drop_append_of_le_length hshort] at hrest
        obtain ⟨before, rest, middle, rfl, hbefore, hafter⟩ := ih hrest
        refine ⟨event :: before, rest, middle, rfl, ⟨?_, ?_, hbefore.tail⟩, hafter⟩
        · rw [List.flatten_cons, List.append_assoc, ← hbefore.bytes, ← hevent, List.take_append_drop]
        · intro other hother
          rcases List.mem_cons.mp hother with rfl | hother
          · exact h.events _ (.head _)
          · exact hbefore.events other hother

end Pieces

/-! ### The events of a message -/

section Events

variable {inner : InputSession} {data tail : Msg} {events : List Msg}

/-- What a part of the loop does: it fails, or hands over the first of the events. -/
structure Handed (platform : Platform) (inner : InputSession) (events : List Msg) (tail : Msg)
    (inner' : InputSession) (data' : Msg) (outcome : Outcome) : Prop where
  failed : outcome ≠ .ok → After platform events inner inner' outcome
  ok : outcome = .ok → ∃ before rest, events = before ++ rest ∧
    After platform before inner inner' .ok ∧ Pieces (inner'.msgBuffer ++ data') rest tail

theorem recvDirect_handed (platform : Platform)
    (h : Pieces (inner.msgBuffer ++ data) events tail) :
    let result := recvDirect platform inner data
    Handed platform inner events tail result.1 result.2.2 result.2.1 ∧
      result.1.msgBuffer = inner.msgBuffer ∧ result.2.2.length ≤ data.length := by
  have hkeeps := inputRecvEvent_keeps platform inner (data.take inputPktLength)
  unfold recvDirect
  split
  · next hdirect =>
    have hnil : inner.msgBuffer = [] := List.length_eq_zero_iff.mp hdirect.1
    rw [hnil, List.nil_append] at h
    obtain ⟨event, rest, rfl, hevent, hrest⟩ := h.first hdirect.2
    rw [hevent] at hkeeps ⊢
    refine ⟨⟨fun hfailed => ?_, fun hok => ?_⟩, hkeeps.2, ?_⟩
    · exact (After.event rfl).ended hfailed
    · refine ⟨[event], rest, rfl, ?_, ?_⟩
      · rw [← hok]
        exact .event rfl
      · change Pieces ((inputRecvEvent platform inner event).1.msgBuffer ++ _) rest tail
        rw [hkeeps.2, hnil, List.nil_append]
        exact hrest
    · change (data.drop inputPktLength).length ≤ data.length
      rw [List.length_drop]
      omega
  · exact ⟨⟨fun hfailed => absurd rfl hfailed, fun _ => ⟨[], events, rfl, .nil inner, h⟩⟩, rfl, le_rfl⟩

theorem recvBuffered_handed (platform : Platform)
    (h : Pieces (inner.msgBuffer ++ data) events tail) (hle : inner.msgBuffer.length ≤ inputPktLength) :
    let result := recvBuffered platform inner
    Handed platform inner events tail result.1 data result.2 ∧
      (result.2 = .ok → result.1.msgBuffer.length < inputPktLength) := by
  unfold recvBuffered
  split
  · next hfull =>
    obtain ⟨event, rest, rfl, hevent, hrest⟩ := h.first (by rw [List.length_append]; omega)
    rw [← hfull, List.take_left] at hevent
    rw [← hfull, List.drop_left] at hrest
    rw [hevent]
    cases hresult : inputRecvEvent platform inner event with
    | mk inner' outcome =>
        have hafter := After.event hresult
        cases outcome with
        | ok =>
            refine ⟨⟨fun hfailed => absurd rfl hfailed, fun _ => ⟨[event], rest, rfl, ?_, ?_⟩⟩, ?_⟩
            · exact hafter.buffer []
            · exact hrest
            · exact fun _ => Nat.zero_lt_succ _
        | failed => exact ⟨⟨fun hfailed => hafter.ended hfailed, nofun⟩, nofun⟩
        | undefined => exact ⟨⟨fun hfailed => hafter.ended hfailed, nofun⟩, nofun⟩
  · next hnot =>
    exact ⟨⟨fun hfailed => absurd rfl hfailed, fun _ => ⟨[], events, rfl, .nil inner, h⟩⟩,
      fun _ => lt_of_le_of_ne hle hnot⟩

/-- The loop hands over the bytes of the buffer and of the message as the events that they are. -/
theorem recvRounds_events (platform : Platform) (rounds : Nat)
    (h : Pieces (inner.msgBuffer ++ data) events tail)
    (hbuffer : inner.msgBuffer.length < inputPktLength) (hrounds : data.length < rounds) :
    ∃ inner' outcome, recvRounds platform rounds inner data = some (inner', outcome) ∧
      After platform events inner inner' outcome ∧ (outcome = .ok → inner'.msgBuffer = tail) := by
  induction rounds generalizing inner data events with
  | zero => omega
  | succ rounds ih =>
      obtain ⟨hdirect, hkeeps, hle⟩ := recvDirect_handed platform h
      unfold recvRounds
      generalize recvDirect platform inner data = direct at hdirect hkeeps hle
      obtain ⟨inner₁, outcome₁, data₁⟩ := direct
      cases outcome₁ with
      | failed => exact ⟨inner₁, _, rfl, hdirect.failed (by rintro ⟨⟩), by rintro ⟨⟩⟩
      | undefined => exact ⟨inner₁, _, rfl, hdirect.failed (by rintro ⟨⟩), by rintro ⟨⟩⟩
      | ok =>
          replace hkeeps : inner₁.msgBuffer = inner.msgBuffer := hkeeps
          replace hle : data₁.length ≤ data.length := hle
          obtain ⟨before, rest, rfl, hbefore, hpieces⟩ := hdirect.ok rfl
          obtain ⟨hfull, hless⟩ := (fillBuffer_cut inner₁ data₁ (hkeeps ▸ hbuffer)).2
          have hbytes := (fillBuffer_cut inner₁ data₁ (hkeeps ▸ hbuffer)).1.rest rfl
          dsimp only
          generalize fillBuffer inner₁.msgBuffer data₁ = fill at hbytes hfull hless
          obtain ⟨buffer, data₂⟩ := fill
          replace hless : data₂ = [] ∨ data₂.length < data₁.length := hless
          rw [hbytes] at hpieces
          replace hbefore := hbefore.buffer buffer
          obtain ⟨hbuffered, hshort⟩ := recvBuffered_handed platform hpieces hfull
          dsimp only
          generalize recvBuffered platform { inner₁ with msgBuffer := buffer } = buffered
            at hbuffered hshort
          obtain ⟨inner₂, outcome₂⟩ := buffered
          cases outcome₂ with
          | failed => exact ⟨inner₂, _, rfl, hbefore.trans (hbuffered.failed (by rintro ⟨⟩)), by rintro ⟨⟩⟩
          | undefined => exact ⟨inner₂, _, rfl, hbefore.trans (hbuffered.failed (by rintro ⟨⟩)), by rintro ⟨⟩⟩
          | ok =>
              obtain ⟨before', rest', rfl, hbefore', hpieces'⟩ := hbuffered.ok rfl
              have hboth := hbefore.trans hbefore'
              by_cases hmore : data₂.length = 0
              · obtain rfl := List.length_eq_zero_iff.mp hmore
                rw [List.append_nil] at hpieces'
                obtain ⟨rfl, htail⟩ := hpieces'.short (hshort rfl)
                rw [List.append_nil]
                exact ⟨inner₂, .ok, if_pos hmore, hboth, fun _ => htail⟩
              · have hrest : data₂.length < rounds := by
                  rcases hless with rfl | hless
                  · exact absurd rfl hmore
                  · omega
                obtain ⟨inner₃, outcome, heq, hafter, htail⟩ := ih hpieces' (hshort rfl) hrest
                rw [← List.append_assoc]
                exact ⟨inner₃, outcome, (if_neg hmore).trans heq, hboth.trans hafter, htail⟩

end Events

/-- One call on a message. -/
theorem inputRecvRawAt_events (platform : Platform) {events : List Msg} {bytes tail : Msg}
    (h : session.Inside) (hshort : session.msgBufferLen < inputPktLength)
    (hpieces : Pieces (session.view.msgBuffer ++ bytes) events tail) :
    ∃ result, inputRecvRawAt platform session bytes = some result ∧
      After platform events session.view result.session.view result.outcome ∧
      (result.outcome = .ok → result.session.Inside ∧ result.session.msgBufferLen < inputPktLength ∧
        result.session.view.msgBuffer = tail ∧ result.msg.length = 0) := by
  have hbuffer : session.view.msgBuffer.length < inputPktLength := by
    rw [RawSession.length_view h]
    exact hshort
  obtain ⟨inner, outcome, hrounds, hafter, htail⟩ :=
    recvRounds_events platform (bytes.length + 1) hpieces hbuffer (Nat.lt_succ_self _)
  have hwhole : (RawMsg.whole bytes).Inside := Nat.zero_add _
  obtain ⟨result, heq, rfl, rfl, hok⟩ := recvRoundsAt_eq (bytes.length + 1) h hwhole hrounds
  refine ⟨result, heq, hafter, fun hresult => ?_⟩
  obtain ⟨hinside, hlength⟩ := hok hresult
  refine ⟨hinside, ?_, htail hresult, hlength⟩
  rw [← RawSession.length_view hinside, htail hresult]
  exact hpieces.tail

theorem recvMessages_events (platform : Platform) {messages events : List Msg} {tail : Msg}
    (h : session.Inside) (hshort : session.msgBufferLen < inputPktLength)
    (hpieces : Pieces (session.view.msgBuffer ++ messages.flatten) events tail) :
    ∃ results final outcome, recvMessages platform messages session = some (results, final, outcome) ∧
      After platform events session.view final.view outcome ∧
      (∀ result ∈ results, result.outcome = .ok →
        result.session.msgBufferLen < inputPktLength ∧ result.msg.length = 0) ∧
      (outcome = .ok → results.length = messages.length ∧
        (∀ result ∈ results, result.outcome = .ok) ∧ final.msgBufferLen = tail.length) := by
  induction messages generalizing session events with
  | nil =>
      rw [List.flatten_nil, List.append_nil] at hpieces
      have hlength := RawSession.length_view h
      obtain ⟨rfl, rfl⟩ := hpieces.short (by rw [hlength]; exact hshort)
      exact ⟨[], session, .ok, rfl, .nil _, nofun, fun _ => ⟨rfl, nofun, hlength.symm⟩⟩
  | cons bytes messages ih =>
      rw [List.flatten_cons, ← List.append_assoc] at hpieces
      obtain ⟨before, rest, middle, rfl, hbefore, hrest⟩ := hpieces.split
      obtain ⟨result, heq, hafter, hok⟩ := inputRecvRawAt_events platform h hshort hbefore
      unfold recvMessages
      rw [heq]
      simp only [Option.bind_eq_bind, Option.bind_some]
      cases houtcome : result.outcome with
      | failed =>
          refine ⟨[result], result.session, .failed, rfl, ?_, ?_, nofun⟩
          · exact (houtcome ▸ hafter).ended nofun
          · intro other hother
            rw [List.mem_singleton.mp hother, houtcome]
            exact nofun
      | undefined =>
          refine ⟨[result], result.session, .undefined, rfl, ?_, ?_, nofun⟩
          · exact (houtcome ▸ hafter).ended nofun
          · intro other hother
            rw [List.mem_singleton.mp hother, houtcome]
            exact nofun
      | ok =>
          obtain ⟨hinside, hshort', hmiddle, hlength⟩ := hok houtcome
          rw [← hmiddle] at hrest
          obtain ⟨results, final, outcome, hresults, hafter', hcalls, hend⟩ := ih hinside hshort' hrest
          refine ⟨result :: results, final, outcome, ?_, (houtcome ▸ hafter).trans hafter', ?_, ?_⟩
          · rw [hresults]
            rfl
          · intro other hother hother'
            rcases List.mem_cons.mp hother with rfl | hother
            · exact ⟨hshort', hlength⟩
            · exact hcalls other hother hother'
          · intro houtcome'
            obtain ⟨hcount, hall, htail⟩ := hend houtcome'
            refine ⟨by rw [List.length_cons, hcount, List.length_cons], ?_, htail⟩
            intro other hother
            rcases List.mem_cons.mp hother with rfl | hother
            · exact houtcome
            · exact hall other hother

/-! ### The packets of the client -/

/-- The stream of bytes, whatever messages it comes in, is one event for each packet. -/
theorem exists_events {packets : List (List UInt8)} {stream : Msg}
    (hpackets : ∀ packet ∈ packets, packet.length = inputPktLength)
    (hstream : stream.map StreamByte.value = packets.flatten) :
    ∃ events : List Msg, Pieces stream events [] ∧
      events.map (List.map StreamByte.value) = packets := by
  have hlength : stream.length = inputPktLength * packets.length := by
    rw [← List.length_map StreamByte.value, hstream, length_flatten_mul hpackets]
  obtain ⟨events, hcount, hevents, rfl⟩ := exists_flatten hlength
  refine ⟨events, ⟨(List.append_nil _).symm, hevents, by decide⟩, ?_⟩
  rw [List.eq_iff_flatten_eq]
  constructor
  · rw [← hstream, List.map_flatten]
  · apply List.ext_getElem
    · simp only [List.length_map, hcount]
    · intro i hi hi'
      simp only [List.getElem_map, List.length_map]
      rw [hevents _ (List.getElem_mem _), hpackets _ (List.getElem_mem _)]

/-- However the packets of some states are cut into messages, they are handed over one by one up
to the first that fails, and each is read as the state that it was made of. -/
theorem packets_handed_over (platform : Platform) (states : List Frontend.GamepadState)
    (packets : List (List UInt8)) (messages : List Msg) (session : RawSession)
    (hencode : states.map Frontend.encodeGamepadState = packets.map some)
    (hindex : ∀ state ∈ states, state.clientIndex < 8)
    (hcut : messages.flatten.map StreamByte.value = packets.flatten)
    (harray : session.msgBuffer.length = inputPktLength) (hempty : session.msgBufferLen = 0) :
    ∃ events results final outcome,
      recvMessages platform messages session = some (results, final, outcome) ∧
      events.map (List.map StreamByte.value) = packets ∧
      After platform events session.view final.view outcome ∧
      (∀ (i : Nat) (state : Frontend.GamepadState) packet, states[i]? = some state → packets[i]? = some packet →
        deviceOf packet = state.clientIndex ∧ deviceOf packet < 8 ∧
        (∀ button, (parseState platform packet).buttons button = state.buttons button) ∧
        ∀ axis : Fin 4, eventAxis packet axis.val = state.axes axis) ∧
      (∀ result ∈ results, result.outcome = .ok →
        result.session.msgBufferLen < inputPktLength ∧ result.msg.length = 0) ∧
      (outcome = .ok → results.length = messages.length ∧
        (∀ result ∈ results, result.outcome = .ok) ∧ final.msgBufferLen = 0) := by
  have hpacket (i : Nat) (state : Frontend.GamepadState) (packet : List UInt8)
      (hstate : states[i]? = some state) (hpacket : packets[i]? = some packet) :
      Frontend.encodeGamepadState state = some packet := by
    have hi := congrArg (fun l => l[i]?) hencode
    simp only [List.getElem?_map, hstate, hpacket, Option.map_some] at hi
    exact Option.some.inj hi
  have hlength : ∀ packet ∈ packets, packet.length = inputPktLength := by
    intro packet hmem
    have hsome : some packet ∈ states.map Frontend.encodeGamepadState := by
      rw [hencode]
      exact List.mem_map_of_mem hmem
    obtain ⟨state, -, hstate⟩ := List.mem_map.mp hsome
    exact Frontend.length_encodeGamepadState hstate
  obtain ⟨events, hpieces, hvalues⟩ := exists_events hlength hcut
  have hview : session.view.msgBuffer = [] := by
    change session.msgBuffer.take session.msgBufferLen = []
    rw [hempty, List.take_zero]
  replace hpieces : Pieces (session.view.msgBuffer ++ messages.flatten) events [] := by
    rw [hview]
    exact hpieces
  obtain ⟨results, final, outcome, hresults, hafter, hcalls, hend⟩ :=
    recvMessages_events platform ⟨harray, by rw [hempty]; exact Nat.zero_le _⟩
      (by rw [hempty]; decide) hpieces
  refine ⟨events, results, final, outcome, hresults, hvalues, hafter, ?_, hcalls, hend⟩
  intro i state packet hstate hpacket'
  have hdecode := hpacket i state packet hstate hpacket'
  have hdevice := deviceOf_encode hdecode
  refine ⟨hdevice, hdevice ▸ hindex state (List.mem_of_getElem? hstate), ?_, axis_encode hdecode⟩
  intro button
  rw [parseState_encode platform hdecode]

/-- A session whose devices are not there yet. -/
def emptySession : RawSession where
  msgBuffer := List.replicate 34 ⟨0, 0⟩
  gamepads := fun _ => .null
  events := []
  msgBufferLen := 0

/-- Two packets in three messages, one of them empty. -/
def threeMessages : List Msg :=
  let stream := place 0 (0 :: 1 :: List.replicate 32 0 ++ 0 :: 0 :: 1 :: List.replicate 31 0)
  [stream.take 20, [], stream.drop 20]

theorem packets_handed_over_threeMessages :
    ∃ results final, recvMessages uinput threeMessages emptySession = some (results, final, .ok) ∧
      results.length = 3 ∧ final.msgBufferLen = 0 ∧
      final.events.map (List.map StreamByte.value) =
        [0 :: 1 :: List.replicate 32 0, 0 :: 0 :: 1 :: List.replicate 31 0] := by
  have hrun : (recvMessages uinput threeMessages emptySession).map
      (fun r => (r.2.2, r.2.1.events.map (List.map StreamByte.value))) =
        some (.ok, [0 :: 1 :: List.replicate 32 0, 0 :: 0 :: 1 :: List.replicate 31 0]) := by
    decide
  obtain ⟨-, results, final, outcome, hresults, -, -, -, -, hend⟩ :=
    packets_handed_over uinput [pressed 0 0, pressed 0 1]
      [0 :: 1 :: List.replicate 32 0, 0 :: 0 :: 1 :: List.replicate 31 0] threeMessages emptySession
      (by decide) (by decide) (by decide) rfl rfl
  rw [hresults, Option.map_some] at hrun
  obtain ⟨rfl, hevents⟩ := Prod.mk.inj (Option.some.inj hrun)
  obtain ⟨hcount, -, hlast⟩ := hend rfl
  exact ⟨results, final, hresults, hcount, hlast, hevents⟩

/-- No device can be created. -/
def noUinput : Platform := { uinput with create := fun _ => false }

/-- When a device cannot be created, what is left of the message is not read, and the packets
after it are not handed over. -/
theorem packets_not_handed_over :
    ¬ ∀ (platform : Platform) (states : List Frontend.GamepadState) (packets : List (List UInt8))
      (messages : List Msg) (session : RawSession),
      states.map Frontend.encodeGamepadState = packets.map some →
      (∀ state ∈ states, state.clientIndex < 8) →
      messages.flatten.map StreamByte.value = packets.flatten →
      session.msgBuffer.length = inputPktLength → session.msgBufferLen = 0 →
      ∃ results final outcome,
        recvMessages platform messages session = some (results, final, outcome) ∧
        final.events.map (List.map StreamByte.value) =
          session.events.map (List.map StreamByte.value) ++ packets ∧
        ∀ result ∈ results, result.msg.length = 0 := by
  intro h
  obtain ⟨results, final, outcome, hresults, hevents, -⟩ := h noUinput [pressed 0 0, pressed 0 1]
    [0 :: 1 :: List.replicate 32 0, 0 :: 0 :: 1 :: List.replicate 31 0] threeMessages emptySession
    (by decide) (by decide) (by decide) rfl rfl
  have hrun : (recvMessages noUinput threeMessages emptySession).map
      (fun r => (r.2.1.events.map (List.map StreamByte.value))) =
        some [0 :: 1 :: List.replicate 32 0] := by decide
  rw [hresults, Option.map_some, hevents] at hrun
  exact absurd hrun (by decide)

end Stratus.Input
