import Mathlib.Data.List.Infix
import Stratus.Input.InputPath
import Stratus.Input.PacketCodec
import Stratus.Input.WholePackets

/-! The state of a virtual gamepad once all packets have been handled or lost. -/
namespace Stratus.Input

open Stratus.Lib Stratus.Frontend

/-! ### The last packet for a gamepad -/

def lastFor (device : Nat) (packets : List (List UInt8)) : Option (List UInt8) :=
  (packets.filter fun packet => deviceOf packet = device).getLast?

theorem lastFor_append (device : Nat) (packets packets' : List (List UInt8)) :
    lastFor device (packets ++ packets') = (lastFor device packets').or (lastFor device packets) := by
  rw [lastFor, List.filter_append, List.getLast?_append]
  rfl

theorem lastFor_snoc (packets : List (List UInt8)) (packet : List UInt8) :
    lastFor (deviceOf packet) (packets ++ [packet]) = some packet := by
  rw [lastFor_append]
  simp [lastFor]

theorem lastFor_snoc_ne {device : Nat} (packets : List (List UInt8)) {packet : List UInt8}
    (hne : deviceOf packet ≠ device) :
    lastFor device (packets ++ [packet]) = lastFor device packets := by
  rw [lastFor_append]
  simp [lastFor, hne]

theorem isSome_lastFor {device : Nat} {packets : List (List UInt8)} {packet : List UInt8}
    (hmem : packet ∈ packets) (hdevice : deviceOf packet = device) :
    (lastFor device packets).isSome := by
  have hfilter : packet ∈ packets.filter fun packet => deviceOf packet = device := by
    rw [List.mem_filter]
    exact ⟨hmem, by simpa using hdevice⟩
  rw [lastFor, List.getLast?_isSome]
  exact List.ne_nil_of_mem hfilter

/-- A packet may be left out when there is a later one for its gamepad. -/
theorem lastFor_lose {device : Nat} {packet : List UInt8} (before behind : List (List UInt8))
    (h : ∃ later ∈ behind, deviceOf later = deviceOf packet) :
    lastFor device (before ++ packet :: behind) = lastFor device (before ++ behind) := by
  have hcons : before ++ packet :: behind = (before ++ [packet]) ++ behind := by
    rw [List.append_assoc]
    rfl
  rw [hcons, lastFor_append, lastFor_append device before behind]
  by_cases hdevice : deviceOf packet = device
  · obtain ⟨later, hlater, hsame⟩ := h
    have hsome := isSome_lastFor hlater (hsame.trans hdevice)
    obtain ⟨last, hlast⟩ := Option.isSome_iff_exists.mp hsome
    rw [hlast]
    rfl
  · rw [lastFor_snoc_ne before hdevice]

/-! ### What has not been handled yet -/

def values (msg : Msg) : List UInt8 := msg.map StreamByte.value

/-- The message at the head of the queue has been handled. -/
def Main.handled : Main → Bool
  | .pop | .popping | .returned | .undefined => true
  | _ => false

/-- The messages in the queue that have not been handled. -/
def Path.waiting (x : Path) : List Msg := if x.main.handled then x.queued.tail else x.queued

/-- The packets that the server has not yet read. -/
def Path.inFlight (x : Path) : List (List UInt8) := x.written.drop (x.delivered / inputPktLength)

def Path.pending (x : Path) : List (List UInt8) :=
  (x.waiting ++ x.pushing.toList).map values ++ x.inFlight

def Path.eventValues (x : Path) : List (List UInt8) := x.session.events.map values

/-- Every packet has been handled, is on its way, or has been followed by another one for
its gamepad. -/
structure Path.Tracks (platform : Platform) (x : Path) : Prop where
  written : ∀ packet ∈ x.written, packet.length = inputPktLength ∧ deviceOf packet < 8
  delivered : ∃ k, x.delivered = inputPktLength * k ∧ k ≤ x.written.length
  pushing : ∀ msg, x.pushing = some msg → values msg ∈ x.written
  queued : ∀ msg ∈ x.queued, values msg ∈ x.written
  handling : ∀ msg, x.main = .handle msg → x.queued.head? = some msg
  nonempty : x.main.handled = true → x.queued ≠ []
  sound : x.main ≠ .undefined
  slots : ∀ i, x.session.gamepads i ≠ .garbage
  buffer : x.main ≠ .returned → x.session.msgBuffer = []
  last : ∀ device, lastFor device (x.eventValues ++ x.pending) = lastFor device x.written
  lastSent : ∀ device, x.lastSentPackets device = lastFor device x.written
  gamepads : x.main ≠ .returned → ∀ (device : Fin 8) packet,
    lastFor device.val x.eventValues = some packet → ∃ gamepad,
      x.session.gamepads device = .pad gamepad ∧ gamepad.state = parseState platform packet

variable {platform : Platform} {x : Path}

theorem Path.Tracks.write (h : x.Tracks platform) {state : Frontend.GamepadState}
    {payload : List UInt8} (hencode : encodeGamepadState state = some payload)
    (hindex : state.clientIndex < 8) :
    Path.Tracks platform
      { x with
        written := x.written ++ [payload]
        lastSentPackets := Function.update x.lastSentPackets state.clientIndex (some payload) } := by
  have hdevice := deviceOf_encode hencode
  obtain ⟨k, hk, hle⟩ := h.delivered
  have hflight : (x.written ++ [payload]).drop (x.delivered / inputPktLength) =
      x.inFlight ++ [payload] := by
    rw [Path.inFlight, hk, Nat.mul_div_cancel_left _ (by decide), List.drop_append_of_le_length hle]
  refine ⟨?_, ⟨k, hk, ?_⟩, ?_, ?_, h.handling, h.nonempty, h.sound, h.slots, h.buffer, ?_, ?_,
    h.gamepads⟩
  · intro packet hpacket
    rcases List.mem_append.mp hpacket with hpacket | hpacket
    · exact h.written packet hpacket
    · rw [List.mem_singleton.mp hpacket, hdevice]
      exact ⟨length_encodeGamepadState hencode, hindex⟩
  · exact hle.trans (by simp)
  · exact fun msg hmsg => List.mem_append_left _ (h.pushing msg hmsg)
  · exact fun msg hmsg => List.mem_append_left _ (h.queued msg hmsg)
  · intro device
    change lastFor device (x.eventValues ++ ((x.waiting ++ x.pushing.toList).map values ++
      (x.written ++ [payload]).drop (x.delivered / inputPktLength))) = _
    have hlast := h.last device
    rw [Path.pending, ← List.append_assoc] at hlast
    rw [hflight, ← List.append_assoc, ← List.append_assoc, lastFor_append, hlast, ← lastFor_append]
  · intro device
    change Function.update x.lastSentPackets state.clientIndex (some payload) device = _
    by_cases hsame : device = state.clientIndex
    · rw [hsame, Function.update_self, ← hdevice, lastFor_snoc]
    · rw [Function.update_of_ne hsame, lastFor_snoc_ne _ (fun heq => hsame (heq.symm.trans hdevice)),
        h.lastSent]

/-- The next packet, read as one message. -/
theorem values_chunkOf {written : List (List UInt8)} {k : Nat}
    (hlength : ∀ packet ∈ written, packet.length = inputPktLength) (hk : k < written.length) :
    values (chunkOf written (inputPktLength * k) inputPktLength) = written[k] := by
  have hpacket : written[k].length = inputPktLength := hlength _ (List.getElem_mem hk)
  rw [chunkOf, streamOf, drop_place, drop_flatten_mul hlength, List.drop_eq_getElem_cons hk,
    List.flatten_cons, values, List.map_take, map_value_place, ← hpacket, List.take_left]

theorem Path.Tracks.read (h : x.Tracks platform) {length : Nat} (hidle : x.pushing = none)
    (hlength : length = inputPktLength)
    (hmore : x.delivered + inputPktLength ≤ inputPktLength * x.written.length) :
    Path.Tracks platform
      { x with
        delivered := x.delivered + (chunkOf x.written x.delivered length).length
        pushing := some (chunkOf x.written x.delivered length) } := by
  subst hlength
  obtain ⟨k, hk, hle⟩ := h.delivered
  have hlt : k < x.written.length := by
    rw [hk, ← Nat.mul_succ] at hmore
    exact Nat.le_of_mul_le_mul_left hmore (by decide)
  have hvalues : values (chunkOf x.written x.delivered inputPktLength) = x.written[k] := by
    rw [hk]
    exact values_chunkOf (fun packet hpacket => (h.written packet hpacket).1) hlt
  have hchunk : (chunkOf x.written x.delivered inputPktLength).length = inputPktLength := by
    have hpacket := (h.written _ (List.getElem_mem hlt)).1
    rwa [← hvalues, values, List.length_map] at hpacket
  have hdelivered : x.delivered + (chunkOf x.written x.delivered inputPktLength).length =
      inputPktLength * (k + 1) := by
    rw [hchunk, hk, Nat.mul_succ]
  refine ⟨h.written, ⟨k + 1, hdelivered, hlt⟩, ?_, h.queued, h.handling, h.nonempty, h.sound, h.slots,
    h.buffer, ?_, h.lastSent, h.gamepads⟩
  · rintro msg ⟨⟩
    rw [hvalues]
    exact List.getElem_mem hlt
  · intro device
    rw [← h.last device]
    change lastFor device (x.eventValues ++ ((x.waiting ++
      [chunkOf x.written x.delivered inputPktLength]).map values ++ x.written.drop
        ((x.delivered + (chunkOf x.written x.delivered inputPktLength).length) / inputPktLength))) = _
    rw [hdelivered, Nat.mul_div_cancel_left _ (by decide), Path.pending, hidle, Path.inFlight, hk,
      Nat.mul_div_cancel_left _ (by decide), List.drop_eq_getElem_cons hlt, ← hk, List.map_append,
      List.map_singleton, hvalues, Option.toList_none, List.append_nil, List.append_assoc]
    rfl

theorem Path.waiting_append (h : x.Tracks platform) (msg : Msg) :
    Path.waiting { x with pushing := none, queued := x.queued ++ [msg] } = x.waiting ++ [msg] := by
  unfold Path.waiting
  dsimp only
  split
  · next hhandled => exact List.tail_append_of_ne_nil (h.nonempty hhandled)
  · rfl

theorem Path.Tracks.append (h : x.Tracks platform) {msg : Msg} (hpushing : x.pushing = some msg) :
    Path.Tracks platform { x with pushing := none, queued := x.queued ++ [msg] } := by
  refine ⟨h.written, h.delivered, by simp, ?_, ?_, by simp, h.sound, h.slots, h.buffer, ?_, h.lastSent,
    h.gamepads⟩
  · intro other hother
    rcases List.mem_append.mp hother with hother | hother
    · exact h.queued other hother
    · exact List.mem_singleton.mp hother ▸ h.pushing msg hpushing
  · intro other hother
    change (x.queued ++ [msg]).head? = _
    rw [List.head?_append, h.handling other hother]
    rfl
  · intro device
    rw [← h.last device]
    unfold Path.pending
    rw [Path.waiting_append h, hpushing]
    change lastFor device (x.eventValues ++ ((x.waiting ++ [msg] ++ []).map values ++ x.inFlight)) = _
    rw [List.append_nil]
    rfl

/-- A later packet for the same gamepad is on its way. -/
def Superseded (written : List (List UInt8)) (delivered : Nat) (msg : Msg) (behind : List Msg) :
    Prop :=
  ∃ later ∈ behind.map values ++ written.drop (delivered / inputPktLength),
    deviceOf later = deviceOf (values msg)

theorem Path.Tracks.refuse (h : x.Tracks platform) {msg : Msg} (hpushing : x.pushing = some msg)
    (hlater : Superseded x.written x.delivered msg []) :
    Path.Tracks platform { x with pushing := none } := by
  refine ⟨h.written, h.delivered, by simp, h.queued, h.handling, h.nonempty, h.sound, h.slots, h.buffer,
    ?_, h.lastSent, h.gamepads⟩
  intro device
  rw [← h.last device]
  unfold Path.pending
  rw [hpushing]
  change lastFor device (x.eventValues ++ ((x.waiting ++ []).map values ++ x.inFlight)) =
    lastFor device (x.eventValues ++ ((x.waiting ++ [msg]).map values ++ x.inFlight))
  rw [List.append_nil, List.map_append, List.map_singleton, List.append_assoc _ [values msg],
    ← List.append_assoc, ← List.append_assoc]
  exact (lastFor_lose _ _ hlater).symm

theorem Path.Tracks.discard (h : x.Tracks platform) {msg : Msg} {rest : List Msg}
    (hmain : x.main = .peaking) (hqueued : x.queued = msg :: rest)
    (hlater : Superseded x.written x.delivered msg (rest ++ x.pushing.toList)) :
    Path.Tracks platform { x with queued := rest } := by
  refine ⟨h.written, h.delivered, h.pushing, ?_, ?_, ?_, h.sound, h.slots, h.buffer, ?_, h.lastSent,
    h.gamepads⟩
  · exact fun other hother => h.queued other (hqueued ▸ List.mem_cons_of_mem _ hother)
  · intro other hother
    cases hmain.symm.trans hother
  · intro hhandled
    rw [hmain] at hhandled
    cases hhandled
  · intro device
    have hwaiting : x.waiting = msg :: rest := by
      rw [Path.waiting, hmain, hqueued]
      rfl
    have hwaiting' : Path.waiting { x with queued := rest } = rest := by
      rw [Path.waiting, hmain]
      rfl
    rw [← h.last device]
    unfold Path.pending
    rw [hwaiting, hwaiting']
    exact (lastFor_lose x.eventValues _ hlater).symm

/-- `input_main` goes on, with no message handled in between. -/
theorem Path.Tracks.goto (h : x.Tracks platform) {main : Main} (hhandled : main.handled = x.main.handled)
    (hsound : main ≠ .undefined) (hreturned : x.main ≠ .returned)
    (hto : ∀ msg, main = .handle msg → x.queued.head? = some msg) :
    Path.Tracks platform { x with main := main } := by
  have hwaiting : Path.waiting { x with main := main } = x.waiting := by
    unfold Path.waiting
    rw [hhandled]
  refine ⟨h.written, h.delivered, h.pushing, h.queued, hto, ?_, hsound, h.slots,
    fun _ => h.buffer hreturned, ?_, h.lastSent, fun _ => h.gamepads hreturned⟩
  · exact fun hmain => h.nonempty (hhandled.symm.trans hmain)
  · intro device
    rw [← h.last device]
    unfold Path.pending
    rw [hwaiting]
    rfl

theorem Path.Tracks.remove (h : x.Tracks platform) {msg : Msg} {rest : List Msg}
    (hmain : x.main = .popping) (hqueued : x.queued = msg :: rest) :
    Path.Tracks platform { x with queued := rest, main := .loop } := by
  have hreturned : x.main ≠ .returned := by simp [hmain]
  refine ⟨h.written, h.delivered, h.pushing, ?_, by simp, by simp [Main.handled], by simp, h.slots,
    fun _ => h.buffer hreturned, ?_, h.lastSent, fun _ => h.gamepads hreturned⟩
  · exact fun other hother => h.queued other (hqueued ▸ List.mem_cons_of_mem _ hother)
  · intro device
    have hwaiting : x.waiting = rest := by
      rw [Path.waiting, hmain, hqueued]
      rfl
    rw [← h.last device]
    unfold Path.pending
    rw [hwaiting]
    rfl

theorem Path.Tracks.handle (h : x.Tracks platform) {msg : Msg} {session : InputSession}
    {outcome : Outcome} (hmain : x.main = .handle msg)
    (hrecv : inputRecvRaw platform x.session msg = some (session, outcome)) :
    Path.Tracks platform
      { x with session := session, main := outcome.next, position := endOf x.position msg } := by
  have hreturned : x.main ≠ .returned := by simp [hmain]
  have hhead := h.handling msg hmain
  obtain ⟨rest, hqueued⟩ : ∃ rest, x.queued = msg :: rest := List.head?_eq_some_iff.mp hhead
  obtain ⟨hlength, hdevice⟩ := h.written _ (h.queued msg (List.mem_of_mem_head? hhead))
  rw [values, List.length_map] at hlength
  rw [inputRecvRaw_packet platform (h.buffer hreturned) hlength] at hrecv
  obtain ⟨hevents, hbuffer⟩ := inputRecvEvent_keeps platform x.session msg
  obtain ⟨hsound, hslots, hother, hupdated⟩ := inputRecvEvent_gamepads platform h.slots hdevice
  rw [Option.some.inj hrecv] at hevents hbuffer hsound hslots hother hupdated
  have hvalues : session.events.map values = x.eventValues ++ [values msg] := by
    rw [hevents, List.map_append]
    rfl
  refine ⟨h.written, h.delivered, h.pushing, h.queued, ?_, ?_, ?_, hslots, ?_, ?_, h.lastSent, ?_⟩
  · intro other hother
    cases outcome <;> cases hother
  · intro _
    change x.queued ≠ []
    rw [hqueued]
    exact List.cons_ne_nil _ _
  · cases outcome with
    | ok => exact Main.noConfusion
    | failed => exact Main.noConfusion
    | undefined => exact absurd rfl hsound
  · exact fun _ => hbuffer.trans (h.buffer hreturned)
  · intro device
    have hhandled : outcome.next.handled = true := by cases outcome <;> rfl
    have hwaiting : x.waiting = msg :: rest := by
      rw [Path.waiting, hmain, hqueued]
      rfl
    have hwaiting' : Path.waiting
        { x with session := session, main := outcome.next, position := endOf x.position msg } =
          rest := by
      rw [Path.waiting, hhandled, if_pos rfl, hqueued]
      rfl
    have hpending : x.pending =
        [values msg] ++ ((rest ++ x.pushing.toList).map values ++ x.inFlight) := by
      rw [Path.pending, hwaiting]
      rfl
    rw [← h.last device, hpending, ← List.append_assoc, ← hvalues, ← hwaiting']
    rfl
  · intro hnext device packet hlast
    change lastFor device.val (session.events.map values) = some packet at hlast
    have hok : outcome = .ok := by
      cases outcome with
      | ok => rfl
      | failed => exact absurd rfl hnext
      | undefined => exact absurd rfl hsound
    rw [hvalues] at hlast
    by_cases hsame : deviceOf (values msg) = device.val
    · obtain ⟨gamepad, hpad, hstate⟩ := hupdated hok
      rw [← hsame, lastFor_snoc] at hlast
      obtain rfl := Option.some.inj hlast
      refine ⟨gamepad, ?_, hstate⟩
      rw [← hpad]
      exact congrArg session.gamepads (Fin.ext hsame.symm)
    · rw [lastFor_snoc_ne _ hsame] at hlast
      have hkept : session.gamepads device = x.session.gamepads device :=
        hother device (fun heq => hsame heq.symm)
      obtain ⟨gamepad, hpad, hstate⟩ := h.gamepads hreturned device packet hlast
      exact ⟨gamepad, hkept.trans hpad, hstate⟩

/-! ### Runs -/

/-- The client sends states that have changed, of gamepads the server has, and each packet
is read as one message. -/
def PacketChunks (s : State) : Action → Prop
  | .write _ => False
  | .sendStateIfChanged state => state.clientIndex < 8
  | .onCanRead length => length = inputPktLength ∧
      s.delivered + inputPktLength ≤ inputPktLength * s.written.length
  | .transport | .input | .stop => True

def LosesSuperseded (s : State) (action : Action) : Prop :=
  ∀ lost ∈ losing s action, Superseded s.written s.delivered lost.1 lost.2

/-- Nothing is on its way. -/
def Drained (s : State) : Prop :=
  s.queue.buf.queue = [] ∧ s.transport.data = none ∧ s.delivered = inputPktLength * s.written.length

/-- Each gamepad has the state that was last sent for it. -/
def ShowsLastSent (platform : Platform) (s : State) : Prop :=
  ∀ (state : Frontend.GamepadState) (payload : List UInt8) (h : state.clientIndex < 8),
    encodeGamepadState state = some payload → s.lastSentPackets state.clientIndex = some payload →
    ∃ gamepad, s.session.gamepads ⟨state.clientIndex, h⟩ = .pad gamepad ∧
      gamepad.state = { buttons := state.buttons, axes := fun i => platform.axis (state.axes i) }

/-- What is allowed of a step, seen on the path. -/
def AllowedLabel (x : Path) : Label → Prop
  | .write state => state.clientIndex < 8
  | .read length => length = inputPktLength ∧
      x.delivered + inputPktLength ≤ inputPktLength * x.written.length
  | .lose msg behind => Superseded x.written x.delivered msg behind
  | .other | .handle _ => True

theorem Path.Tracks.start {memory : Fin 8 → Slot} (hmemory : ∀ i, memory i = .null) :
    (start memory).path.Tracks platform := by
  have hslots : ∀ i, (Input.start memory).session.gamepads i ≠ .garbage := by
    intro i
    change (if i.val = 0 then Slot.pad gamepadInit else memory i) ≠ _
    split
    · exact Slot.noConfusion
    · rw [hmemory]
      exact Slot.noConfusion
  refine ⟨?_, ⟨0, rfl, Nat.zero_le _⟩, ?_, ?_, ?_, ?_, Main.noConfusion, hslots, fun _ => rfl, ?_,
    fun _ => rfl, ?_⟩
  · exact fun packet hpacket => absurd hpacket List.not_mem_nil
  · rintro msg ⟨⟩
  · rw [start_queued]
    exact fun msg hmsg => absurd hmsg List.not_mem_nil
  · rintro msg ⟨⟩
  · rintro ⟨⟩
  · intro device
    have hwaiting : (Input.start memory).path.waiting = [] := start_queued memory
    have hflight : (Input.start memory).path.inFlight = [] := List.drop_nil
    rw [Path.pending, hwaiting, hflight]
    rfl
  · rintro _ device packet ⟨⟩

theorem Path.Tracks.step {y : Path} {label : Label} (h : x.Tracks platform)
    (hlabel : AllowedLabel x label) (hstep : Path.Step platform x label y) : y.Tracks platform := by
  cases hstep with
  | stutter => exact h
  | write state payload hencode => exact h.write hencode hlabel
  | read length hidle => exact h.read hidle hlabel.1 hlabel.2
  | append msg hpushing => exact h.append hpushing
  | refuse msg hpushing => exact h.refuse hpushing hlabel
  | discard msg rest hmain hqueued => exact h.discard hmain hqueued hlabel
  | peak hmain => exact h.goto (by rw [hmain]; rfl) (by simp) (by simp [hmain]) (by simp)
  | sleep hmain => exact h.goto (by rw [hmain]; rfl) (by simp) (by simp [hmain]) (by simp)
  | take msg hmain hqueued =>
      refine h.goto (by rw [hmain]; rfl) (by simp) (by simp [hmain]) ?_
      rintro other ⟨⟩
      exact hqueued
  | handle msg session outcome hmain hrecv => exact h.handle hmain hrecv
  | pop hmain => exact h.goto (by rw [hmain]; rfl) (by simp) (by simp [hmain]) (by simp)
  | remove msg rest hmain hqueued => exact h.remove hmain hqueued

/-- No state is lost for good when a packet is lost only behind which there is another one
for its gamepad. -/
theorem last_state_of_loses_superseded {memory : Fin 8 → Slot} {s : State}
    (hmemory : ∀ i, memory i = .null)
    (hs : (system platform memory fun s action =>
      PacketChunks s action ∧ LosesSuperseded s action).Reachable s) :
    s.main ≠ .undefined ∧ (Drained s → ShowsLastSent platform s) := by
  have hpath : (Path.system platform memory AllowedLabel).Reachable s.path := by
    refine path_reachable ?_ hs
    rintro s action label ⟨hchunks, hloses⟩ hshows
    cases label with
    | other => trivial
    | handle msg => trivial
    | write state =>
        rcases hshows with rfl | rfl
        · exact hchunks.elim
        · exact hchunks
    | read length =>
        cases hshows
        exact hchunks
    | lose msg behind => exact hloses (msg, behind) hshows
  have h : s.path.Tracks platform := by
    refine hpath.invariant (Path.Tracks platform) ?_ ?_
    · rintro x rfl
      exact .start hmemory
    · rintro x y h ⟨label, hlabel, hstep⟩
      exact h.step hlabel hstep
  refine ⟨h.sound, ?_⟩
  rintro ⟨hqueue, hidle, hdelivered⟩ state payload hindex hencode hsent
  have hreturned : s.main ≠ .returned := by
    intro hmain
    refine h.nonempty ?_ hqueue
    change s.main.handled = true
    rw [hmain]
    rfl
  have hpending : s.path.pending = [] := by
    have hwaiting : s.path.waiting = [] := by
      unfold Path.waiting
      rw [show s.path.queued = [] from hqueue]
      split <;> rfl
    have hflight : s.path.inFlight = [] := by
      change s.written.drop (s.delivered / inputPktLength) = []
      rw [hdelivered, Nat.mul_div_cancel_left _ (by decide), List.drop_length]
    rw [Path.pending, hwaiting, hflight, show s.path.pushing = none from hidle]
    rfl
  have hlast := h.last state.clientIndex
  rw [hpending, List.append_nil, ← h.lastSent] at hlast
  obtain ⟨gamepad, hpad, hstate⟩ :=
    h.gamepads hreturned ⟨state.clientIndex, hindex⟩ payload (hlast.trans hsent)
  exact ⟨gamepad, hpad, hstate.trans (parseState_encode platform hencode)⟩

instance (s : State) : ∀ action, Decidable (PacketChunks s action)
  | .write _ => isFalse id
  | .sendStateIfChanged state => inferInstanceAs (Decidable (state.clientIndex < 8))
  | .onCanRead length => inferInstanceAs (Decidable (length = inputPktLength ∧
      s.delivered + inputPktLength ≤ inputPktLength * s.written.length))
  | .transport | .input | .stop => isTrue trivial

instance (written : List (List UInt8)) (delivered : Nat) (msg : Msg) (behind : List Msg) :
    Decidable (Superseded written delivered msg behind) :=
  inferInstanceAs (Decidable (∃ later ∈ behind.map values ++
    written.drop (delivered / inputPktLength), deviceOf later = deviceOf (values msg)))

instance (s : State) (action : Action) : Decidable (LosesSuperseded s action) :=
  inferInstanceAs (Decidable (∀ lost ∈ losing s action,
    Superseded s.written s.delivered lost.1 lost.2))

instance (s : State) : Decidable (Drained s) :=
  inferInstanceAs (Decidable (s.queue.buf.queue = [] ∧ s.transport.data = none ∧
    s.delivered = inputPktLength * s.written.length))

/-- Two states are in the queue when Input looks, and the second is handled. -/
def twoStates (first second : Frontend.GamepadState) : List Action :=
  [Action.sendStateIfChanged first, .sendStateIfChanged second, .onCanRead 34] ++
    List.replicate 9 Action.transport ++ [Action.onCanRead 34] ++ List.replicate 9 Action.transport ++
    List.replicate 23 Action.input

/-- Of two states of one gamepad the first may be lost. -/
theorem last_state_twoStates :
    ∃ s, (system uinput (fun _ => .null) fun s action =>
        PacketChunks s action ∧ LosesSuperseded s action).Reachable s ∧ Drained s ∧
      s.session.events.length = 1 ∧ ShowsLastSent uinput s := by
  have hrun : (run uinput (fun s action => PacketChunks s action ∧ LosesSuperseded s action)
      (start fun _ => .null) (twoStates (pressed 0 0) (pressed 0 1))).map
        (fun s => (decide (Drained s), s.session.events.length)) = some (true, 1) := by
    decide +kernel
  obtain ⟨s, hs, hend⟩ := Option.map_eq_some_iff.mp hrun
  obtain ⟨hdrained, hevents⟩ := Prod.mk.inj hend
  have hreachable := run_reachable (.start rfl) hs
  replace hdrained := of_decide_eq_true hdrained
  exact ⟨s, hreachable, hdrained, hevents,
    (last_state_of_loses_superseded (fun _ => rfl) hreachable).2 hdrained⟩

/-- The button that is pressed on a gamepad. -/
def slotButton (slot : Slot) (button : Fin 17) : Bool :=
  match slot with
  | .pad gamepad => gamepad.state.buttons button
  | _ => false

/-- Of the states of two gamepads the first is lost, and the client does not send it
again. -/
theorem lost_state :
    ∃ s, (system uinput (fun _ => .null) PacketChunks).Reachable s ∧ Drained s ∧
      ¬ ShowsLastSent uinput s := by
  have hrun : (run uinput PacketChunks (start fun _ => .null)
      (twoStates (pressed 0 0) (pressed 1 0))).map
        (fun s => (decide (Drained s), s.lastSentPackets 0, slotButton (s.session.gamepads 0) 0)) =
      some (true, some (0 :: 1 :: List.replicate 32 0), false) := by decide +kernel
  obtain ⟨s, hs, hend⟩ := Option.map_eq_some_iff.mp hrun
  simp only [Prod.mk.injEq] at hend
  obtain ⟨hdrained, hsent, hbutton⟩ := hend
  refine ⟨s, run_reachable (.start rfl) hs, of_decide_eq_true hdrained, ?_⟩
  intro hshows
  obtain ⟨gamepad, hpad, hstate⟩ := hshows (pressed 0 0) _ (by decide) (by decide) hsent
  replace hpad : s.session.gamepads 0 = .pad gamepad := hpad
  rw [hpad] at hbutton
  change gamepad.state.buttons 0 = false at hbutton
  rw [hstate] at hbutton
  cases hbutton

end Stratus.Input
