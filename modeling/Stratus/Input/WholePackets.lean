import Mathlib.Data.List.Infix
import Stratus.Input.InputPath
import Stratus.Lib.Frames

/-! Which bytes an event is made of. -/
namespace Stratus.Input

open Stratus.Lib Stratus.Frontend

/-! ### Places in the stream -/

theorem length_place (position : Nat) (bytes : List UInt8) :
    (place position bytes).length = bytes.length := by
  induction bytes generalizing position with
  | nil => rfl
  | cons value bytes ih => rw [place, List.length_cons, ih, List.length_cons]

theorem place_append (position : Nat) (bytes bytes' : List UInt8) :
    place position (bytes ++ bytes') =
      place position bytes ++ place (position + bytes.length) bytes' := by
  induction bytes generalizing position with
  | nil => rfl
  | cons value bytes ih =>
      rw [List.cons_append, place, ih, place, List.cons_append, List.length_cons]
      congr 3
      omega

theorem map_value_place (position : Nat) (bytes : List UInt8) :
    (place position bytes).map StreamByte.value = bytes := by
  induction bytes generalizing position with
  | nil => rfl
  | cons value bytes ih => rw [place, List.map_cons, ih]

theorem drop_place (position n : Nat) (bytes : List UInt8) :
    (place position bytes).drop n = place (position + n) (bytes.drop n) := by
  induction bytes generalizing position n with
  | nil => simp [place]
  | cons value bytes ih =>
      cases n with
      | zero => rfl
      | succ n =>
          rw [place, List.drop_succ_cons, ih, List.drop_succ_cons]
          congr 1
          omega

/-- A part of the stream that is not empty tells where it is. -/
theorem infix_place {bytes : List UInt8} {msg : Msg} (position : Nat) (h : msg <:+: place 0 bytes) :
    (msg = [] ∧ endOf position msg = position) ∨
    ∃ first byte, msg.head? = some byte ∧ byte.position = first ∧
      endOf position msg = first + msg.length ∧ msg <+: (place 0 bytes).drop first := by
  obtain ⟨front, back, hstream⟩ := h
  rcases List.eq_nil_or_concat' msg with rfl | ⟨init, last, rfl⟩
  · exact .inl ⟨rfl, rfl⟩
  · have hget (k : Nat) (byte : StreamByte) (hbyte : (place 0 bytes)[k]? = some byte) :
        byte.position = k := by
      rw [← List.head?_drop, drop_place, Nat.zero_add] at hbyte
      cases hdrop : bytes.drop k with
      | nil => simp [hdrop, place] at hbyte
      | cons value rest =>
          rw [hdrop] at hbyte
          cases hbyte
          rfl
    have hlast : last.position = front.length + init.length := by
      apply hget
      rw [← hstream]
      simp
    cases hhead : (init ++ [last]).head? with
    | none => simp at hhead
    | some byte =>
        have hbyte : byte.position = front.length := by
          apply hget
          rw [← hstream, List.append_assoc, List.getElem?_append_right le_rfl, Nat.sub_self,
            ← List.head?_eq_getElem?, List.head?_append, hhead]
          rfl
        refine .inr ⟨front.length, byte, rfl, hbyte, ?_, ?_⟩
        · simp [endOf, hlast]
          omega
        · rw [← hstream, List.append_assoc, List.drop_left]
          exact List.prefix_append _ _

/-! ### Packets and events -/

/-- The event is a packet of the client, with every byte in its place. -/
def Whole (written : List (List UInt8)) (event : List StreamByte) : Prop :=
  ∃ k packet, written[k]? = some packet ∧ event = place (inputPktLength * k) packet

/-- Events cut from the stream at the beginning of a packet. -/
theorem events_whole {written : List (List UInt8)} {parsed : List (List StreamByte)} {k : Nat}
    (hwritten : ∀ packet ∈ written, packet.length = inputPktLength)
    (hparsed : ∀ event ∈ parsed, event.length = inputPktLength)
    (hbytes : parsed.flatten <+: (streamOf written).drop (inputPktLength * k)) :
    ∀ event ∈ parsed, Whole written event := by
  induction parsed generalizing k with
  | nil => exact fun event hevent => absurd hevent List.not_mem_nil
  | cons event parsed ih =>
      have hevent : event.length = inputPktLength := hparsed event List.mem_cons_self
      obtain ⟨later, hlater⟩ := hbytes
      rw [streamOf, drop_place, Nat.zero_add, drop_flatten_mul hwritten, List.flatten_cons,
        List.append_assoc] at hlater
      cases hdrop : written.drop k with
      | nil =>
          rw [hdrop, List.flatten_nil, place, List.append_eq_nil_iff] at hlater
          rw [hlater.1] at hevent
          cases hevent
      | cons packet rest =>
          have hpacket : written[k]? = some packet := by
            rw [← List.head?_drop, hdrop]
            rfl
          have hlength : packet.length = inputPktLength :=
            hwritten packet (List.mem_of_getElem? hpacket)
          have hrest : written.drop (k + 1) = rest := by
            rw [← List.tail_drop, hdrop]
            rfl
          rw [hdrop, List.flatten_cons, place_append] at hlater
          obtain ⟨hsame, hlater⟩ := List.append_inj hlater (by rw [hevent, length_place, hlength])
          have hnext : parsed.flatten <+: (streamOf written).drop (inputPktLength * (k + 1)) := by
            rw [streamOf, drop_place, Nat.zero_add, drop_flatten_mul hwritten, hrest, Nat.mul_succ]
            exact ⟨later, hlength ▸ hlater⟩
          have hwhole := ih (fun event hmem => hparsed event (List.mem_cons_of_mem _ hmem)) hnext
          intro other hother
          rcases List.mem_cons.mp hother with rfl | hother
          · exact ⟨k, packet, hpacket, hsame⟩
          · exact hwhole other hother

/-- The buffer holds the beginning of a packet, up to `position`. -/
def Synced (written : List (List UInt8)) (position : Nat) (buffer : List StreamByte) : Prop :=
  ∃ k, inputPktLength * k + buffer.length = position ∧ buffer.length < inputPktLength ∧
    buffer <+: (streamOf written).drop (inputPktLength * k)

/-- A message begins where the last one ended, or what is missing between them begins
and ends between two packets. -/
def Continues (position : Nat) (msg : Msg) : Prop :=
  ∀ byte ∈ msg.head?, byte.position = position ∨
    (inputPktLength ∣ position ∧ inputPktLength ∣ byte.position)

theorem Synced.continue {written : List (List UInt8)} {position : Nat} {buffer : List StreamByte}
    {msg : Msg} (h : Synced written position buffer) (hmsg : msg <:+: streamOf written)
    (hcontinues : Continues position msg) :
    ∃ k, inputPktLength * k + (buffer ++ msg).length = endOf position msg ∧
      buffer ++ msg <+: (streamOf written).drop (inputPktLength * k) := by
  obtain ⟨k, hposition, hshort, hbuffer⟩ := h
  obtain ⟨rfl, hend⟩ | ⟨first, byte, hbyte, hfirst, hend, hbytes⟩ :=
    infix_place position hmsg
  · exact ⟨k, by rw [List.append_nil, hend, hposition], by rwa [List.append_nil]⟩
  · rw [hend]
    rcases hcontinues byte hbyte with hnext | ⟨hboundary, hboundary'⟩
    · -- nothing is missing
      refine ⟨k, by rw [List.length_append]; omega, ?_⟩
      obtain ⟨later, hlater⟩ := hbuffer
      have hrest : (streamOf written).drop first = later := by
        rw [← hfirst, hnext, ← hposition, ← List.drop_drop, ← hlater, List.drop_left]
      rw [← hlater]
      exact (List.prefix_append_right_inj buffer).mpr (hrest ▸ hbytes)
    · -- the buffer is empty, and the message begins with a packet
      have hempty : buffer = [] := by
        rw [← hposition] at hboundary
        have hdvd : inputPktLength ∣ buffer.length :=
          (Nat.dvd_add_right (Nat.dvd_mul_right _ k)).mp hboundary
        exact List.length_eq_zero_iff.mp (Nat.eq_zero_of_dvd_of_lt hdvd hshort)
      obtain ⟨j, hj⟩ := hboundary'
      subst hempty
      refine ⟨j, by rw [List.nil_append]; omega, ?_⟩
      rw [List.nil_append, ← hj, hfirst]
      exact hbytes

/-- Handling a message that continues the stream. -/
theorem Synced.handle {platform : Platform} {written : List (List UInt8)} {position : Nat}
    {session session' : InputSession} {outcome : Outcome} {msg : Msg}
    (hwritten : ∀ packet ∈ written, packet.length = inputPktLength)
    (h : Synced written position session.msgBuffer) (hmsg : msg <:+: streamOf written)
    (hcontinues : Continues position msg)
    (hrecv : inputRecvRaw platform session msg = some (session', outcome)) :
    (∃ parsed, session'.events = session.events ++ parsed ∧ ∀ event ∈ parsed, Whole written event) ∧
      (outcome = .ok → Synced written (endOf position msg) session'.msgBuffer) := by
  obtain ⟨k, hend, hbytes⟩ := h.continue hmsg hcontinues
  obtain ⟨_, _, hshort, _⟩ := h
  obtain ⟨session₁, outcome₁, parsed, hrecv₁, hcut, hshort'⟩ :=
    recvRounds_cut platform (msg.length + 1) session msg hshort (Nat.lt_succ_self _)
  cases hrecv₁.symm.trans hrecv
  refine ⟨⟨parsed, hcut.events, ?_⟩, fun hok => ?_⟩
  · exact events_whole hwritten hcut.length (hcut.bytes.trans hbytes)
  · have hrest := hcut.rest hok
    rw [List.append_nil] at hrest
    rw [hrest] at hend hbytes
    have hlength := length_flatten_mul hcut.length
    refine ⟨k + parsed.length, ?_, hshort' hok, ?_⟩
    · rw [List.length_append] at hend
      rw [Nat.mul_add]
      omega
    · obtain ⟨later, hlater⟩ := hbytes
      rw [Nat.mul_add, ← hlength, ← List.drop_drop, ← hlater, List.append_assoc, List.drop_left]
      exact List.prefix_append _ _

/-! ### Runs -/

/-- The message that an action hands to `input_recv_raw`. -/
def handling (s : State) : Action → Option Msg
  | .input =>
      match s.main with
      | .handle msg => some msg
      | _ => none
  | _ => none

/-- Messages lost before the one that is handled next were packets, taken together. -/
def LosesPackets (s : State) (action : Action) : Prop :=
  ∀ msg ∈ handling s action, Continues s.position msg

/-- The messages on their way are parts of the stream. -/
structure Path.Inv (x : Path) : Prop where
  written : ∀ packet ∈ x.written, packet.length = inputPktLength
  pushing : ∀ msg, x.pushing = some msg → msg <:+: streamOf x.written
  queued : ∀ msg ∈ x.queued, msg <:+: streamOf x.written
  handled : ∀ msg, x.main = .handle msg → msg <:+: streamOf x.written
  whole : ∀ event ∈ x.session.events, Whole x.written event
  synced : x.main ≠ .returned → x.main ≠ .undefined →
    Synced x.written x.position x.session.msgBuffer

theorem streamOf_append (written : List (List UInt8)) (packet : List UInt8) :
    streamOf written <+: streamOf (written ++ [packet]) := by
  rw [streamOf, streamOf, List.flatten_append, place_append]
  exact List.prefix_append _ _

theorem Path.Inv.write {x : Path} (h : x.Inv) {payload : List UInt8}
    (hlength : payload.length = inputPktLength) (lastSentPackets : LastSentPackets) :
    Path.Inv { x with written := x.written ++ [payload], lastSentPackets := lastSentPackets } := by
  have hstream := streamOf_append x.written payload
  refine ⟨?_, ?_, ?_, ?_, ?_, ?_⟩
  · intro packet hpacket
    rcases List.mem_append.mp hpacket with hpacket | hpacket
    · exact h.written packet hpacket
    · rw [List.mem_singleton.mp hpacket, hlength]
  · exact fun msg hmsg => (h.pushing msg hmsg).trans hstream.isInfix
  · exact fun msg hmsg => (h.queued msg hmsg).trans hstream.isInfix
  · exact fun msg hmsg => (h.handled msg hmsg).trans hstream.isInfix
  · intro event hevent
    obtain ⟨k, packet, hpacket, heq⟩ := h.whole event hevent
    have hk : k < x.written.length := (List.getElem?_eq_some_iff.mp hpacket).1
    exact ⟨k, packet, by rw [List.getElem?_append_left hk, hpacket], heq⟩
  · intro hreturned hundefined
    obtain ⟨k, hposition, hshort, hbuffer⟩ := h.synced hreturned hundefined
    exact ⟨k, hposition, hshort, hbuffer.trans (hstream.drop _)⟩

theorem Path.Inv.handle {platform : Platform} {x : Path} (h : x.Inv) {msg : Msg}
    {session : InputSession} {outcome : Outcome} (hmain : x.main = .handle msg)
    (hrecv : inputRecvRaw platform x.session msg = some (session, outcome))
    (hcontinues : Continues x.position msg) :
    Path.Inv { x with session := session, main := outcome.next, position := endOf x.position msg } := by
  have hsynced := h.synced (by simp [hmain]) (by simp [hmain])
  obtain ⟨⟨parsed, hevents, hparsed⟩, hok⟩ :=
    hsynced.handle h.written (h.handled msg hmain) hcontinues hrecv
  refine ⟨h.written, h.pushing, h.queued, ?_, ?_, ?_⟩
  · intro other hother
    cases outcome <;> cases hother
  · intro event hevent
    rw [hevents] at hevent
    rcases List.mem_append.mp hevent with hevent | hevent
    · exact h.whole event hevent
    · exact hparsed event hevent
  · intro hreturned hundefined
    cases outcome with
    | ok => exact hok rfl
    | failed => exact absurd rfl hreturned
    | undefined => exact absurd rfl hundefined

/-- When `input_main` goes from one call to the next, only its place changes. -/
theorem Path.Inv.goto {x : Path} (h : x.Inv) {main : Main} (hfrom : x.main ≠ .returned)
    (hfrom' : x.main ≠ .undefined) (hto : ∀ msg, main = .handle msg → msg ∈ x.queued) :
    Path.Inv { x with main := main } :=
  ⟨h.written, h.pushing, h.queued, fun msg hmsg => h.queued msg (hto msg hmsg), h.whole,
    fun _ _ => h.synced hfrom hfrom'⟩

theorem Path.Inv.step {platform : Platform} {x y : Path} {label : Label} (h : x.Inv)
    (hlabel : ∀ msg, label = .handle msg → Continues x.position msg)
    (hstep : Path.Step platform x label y) : y.Inv := by
  cases hstep with
  | stutter => exact h
  | write state payload hencode => exact h.write (length_encodeGamepadState hencode) _
  | read length hidle =>
      refine ⟨h.written, ?_, h.queued, h.handled, h.whole, h.synced⟩
      rintro msg ⟨⟩
      exact (List.take_prefix _ _).isInfix.trans (List.drop_suffix _ _).isInfix
  | append msg hpushing =>
      refine ⟨h.written, by simp, ?_, h.handled, h.whole, h.synced⟩
      intro other hother
      rcases List.mem_append.mp hother with hother | hother
      · exact h.queued other hother
      · exact List.mem_singleton.mp hother ▸ h.pushing msg hpushing
  | refuse msg hpushing => exact ⟨h.written, by simp, h.queued, h.handled, h.whole, h.synced⟩
  | discard msg rest hmain hqueued =>
      refine ⟨h.written, h.pushing, ?_, h.handled, h.whole, h.synced⟩
      exact fun other hother => h.queued other (hqueued ▸ List.mem_cons_of_mem _ hother)
  | peak hmain => exact h.goto (by simp [hmain]) (by simp [hmain]) (by simp)
  | sleep hmain => exact h.goto (by simp [hmain]) (by simp [hmain]) (by simp)
  | take msg hmain hqueued =>
      refine h.goto (by simp [hmain]) (by simp [hmain]) ?_
      rintro other ⟨⟩
      exact List.mem_of_mem_head? hqueued
  | handle msg session outcome hmain hrecv => exact h.handle hmain hrecv (hlabel msg rfl)
  | pop hmain => exact h.goto (by simp [hmain]) (by simp [hmain]) (by simp)
  | remove msg rest hmain hqueued =>
      have hgoto : Path.Inv { x with main := .loop } :=
        h.goto (by simp [hmain]) (by simp [hmain]) (by simp)
      refine ⟨h.written, h.pushing, ?_, by simp, h.whole, hgoto.synced⟩
      exact fun other hother => h.queued other (hqueued ▸ List.mem_cons_of_mem _ hother)

/-- In a run that loses whole packets only, every event is a packet of the client. -/
theorem whole_packets_of_loses_packets {platform : Platform} {memory : Fin 8 → Slot} {s : State}
    (hs : (system platform memory LosesPackets).Reachable s) :
    ∀ event ∈ s.session.events, Whole s.written event := by
  have hpath : (Path.system platform memory
      fun x label => ∀ msg, label = .handle msg → Continues x.position msg).Reachable s.path := by
    refine path_reachable ?_ hs
    rintro s action _ hallowed hshows msg rfl
    obtain ⟨rfl, hmain⟩ := hshows
    exact hallowed msg (by simp [handling, hmain])
  refine (hpath.invariant Path.Inv ?_ ?_).whole
  · rintro x rfl
    refine ⟨?_, ?_, ?_, ?_, ?_, fun _ _ => ⟨0, rfl, Nat.zero_lt_succ _, List.nil_prefix⟩⟩
    · exact fun packet hpacket => absurd hpacket List.not_mem_nil
    · rintro msg ⟨⟩
    · rw [start_queued]
      exact fun msg hmsg => absurd hmsg List.not_mem_nil
    · rintro msg ⟨⟩
    · exact fun event hevent => absurd hevent List.not_mem_nil
  · rintro x y h ⟨label, hlabel, hstep⟩
    exact h.step hlabel hstep

instance (position : Nat) (msg : Msg) : Decidable (Continues position msg) :=
  inferInstanceAs (Decidable (∀ byte ∈ msg.head?, byte.position = position ∨
    (inputPktLength ∣ position ∧ inputPktLength ∣ byte.position)))

instance (s : State) (action : Action) : Decidable (LosesPackets s action) :=
  inferInstanceAs (Decidable (∀ msg ∈ handling s action, Continues s.position msg))

/-- Every device can be created and written to; the patterns are those of 1 and -1. -/
def uinput : Platform where
  create := fun _ => true
  write := fun _ => true
  axis := fun bits => if bits = 0x3f800000 then 127 else if bits = 0xbf800000 then -127 else 0

/-- One button is pressed. -/
def pressed (clientIndex button : Nat) : Frontend.GamepadState where
  clientIndex := clientIndex
  buttons := fun i => i.val = button
  axes := fun _ => 0

/-- The stream arrives in parts that are no packets, and each is handled in time. -/
def keptUp : List Action :=
  [Action.write (pressed 0 0), .write (pressed 0 1), .onCanRead 20] ++
    List.replicate 9 Action.transport ++ List.replicate 16 Action.input ++ [Action.onCanRead 20] ++
    List.replicate 45 Action.transport ++ List.replicate 10 Action.input

theorem whole_packets_keptUp :
    ∃ s, (system uinput (fun _ => .null) LosesPackets).Reachable s ∧ s.session.events.length = 1 ∧
      ∀ event ∈ s.session.events, Whole s.written event := by
  have hrun : (run uinput LosesPackets (start fun _ => .null) keptUp).map
      (fun s => s.session.events.length) = some 1 := by decide +kernel
  obtain ⟨s, hs, hevents⟩ := Option.map_eq_some_iff.mp hrun
  have hreachable := run_reachable (.start rfl) hs
  exact ⟨s, hreachable, hevents, whole_packets_of_loses_packets hreachable⟩

/-- The first part of the stream is lost, as there is a later one when Input looks. -/
def fellBehind : List Action :=
  [Action.write (pressed 0 0), .write (pressed 0 1), .onCanRead 20] ++
    List.replicate 9 Action.transport ++ [Action.onCanRead 34] ++ List.replicate 9 Action.transport ++
    List.replicate 17 Action.input

/-- The event has button 15 pressed, which the client has never sent. -/
theorem torn_packet :
    ∃ s, (system uinput (fun _ => .null) fun _ _ => True).Reachable s ∧
      ∃ event ∈ s.session.events,
        ¬ Whole s.written event ∧ event.map StreamByte.value ∉ s.written := by
  have hrun : (run uinput (fun _ _ => True) (start fun _ => .null) fellBehind).map
      (fun s => (s.session.events.map fun event => event.map StreamByte.value, s.written)) =
        some ([List.replicate 16 0 ++ 1 :: List.replicate 17 0],
          [0 :: 1 :: List.replicate 32 0, 0 :: 0 :: 1 :: List.replicate 31 0]) := by decide +kernel
  obtain ⟨s, hs, hevents⟩ := Option.map_eq_some_iff.mp hrun
  obtain ⟨hevents, hwritten⟩ := Prod.mk.inj hevents
  obtain ⟨event, hevent, hvalues⟩ : ∃ event ∈ s.session.events,
      event.map StreamByte.value = List.replicate 16 0 ++ 1 :: List.replicate 17 0 := by
    rw [← List.mem_map, hevents]
    exact List.mem_singleton_self _
  have hmissing : event.map StreamByte.value ∉ s.written := by
    rw [hvalues, hwritten]
    decide
  refine ⟨s, run_reachable (.start rfl) hs, event, hevent, ?_, hmissing⟩
  rintro ⟨k, packet, hpacket, rfl⟩
  rw [map_value_place] at hmissing
  exact hmissing (List.mem_of_getElem? hpacket)

end Stratus.Input
