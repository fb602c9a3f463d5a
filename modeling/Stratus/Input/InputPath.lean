import Stratus.Common.RbufClient
import Stratus.Frontend.InputStream
import Stratus.Input.Session

/-! The way of a gamepad's state from the client to `input_main`: the client's stream,
`InputStreamVisitor.cpp`, the queue between the threads of Transport and Input, and the
loop of `Input.c`.  Below, the same way with the queue as a list that loses messages. -/
namespace Stratus.Input

open Stratus.Lib Stratus.Frontend
open Stratus.Common (Rbuf.Shared Rbuf.Producer Rbuf.Consumer)
open Stratus.Common.Rbuf (producerNext consumerNext freeCapacity)

/-- Where `input_main` is. -/
inductive Main where
  | loop
  /-- in `rbuf_wait_peak_latest` -/
  | peaking
  | handle (msg : Msg)
  | pop
  /-- in `rbuf_pop` -/
  | popping
  | sleeping
  | returned
  | undefined
deriving DecidableEq

/-- `written` are the packets that the client has written, of whose bytes `delivered`
have been read by `OnCanRead`.  `position` is where the last message that was handled
ended in the stream. -/
structure State where
  written : List (List UInt8)
  lastSentPackets : LastSentPackets
  delivered : Nat
  queue : Rbuf.Shared Msg
  transport : Rbuf.Producer Msg
  consumer : Rbuf.Consumer
  isActive : Bool
  main : Main
  session : InputSession
  position : Nat

/-- The bytes of the packets. -/
def streamOf (written : List (List UInt8)) : List StreamByte := place 0 written.flatten

/-- `rbuf_init(8)` with a callback registered. -/
def startQueue : Rbuf.Shared Msg :=
  (Rbuf.Shared.start 8).record { Common.Rbuf.Buf.init Msg 8 with free := true } .internal

/-- The first gamepad has been created; the other slots are as `malloc` left them. -/
def start (memory : Fin 8 → Slot) : State where
  written := []
  lastSentPackets := fun _ => none
  delivered := 0
  queue := startQueue
  transport := .idle
  consumer := .idle
  isActive := true
  main := .loop
  session :=
    { msgBuffer := []
      gamepads := fun i => if i.val = 0 then .pad gamepadInit else memory i
      events := [] }
  position := 0

inductive Action where
  /-- The client writes a packet, whether the state has changed or not. -/
  | write (state : Frontend.GamepadState)
  | sendStateIfChanged (state : Frontend.GamepadState)
  /-- `OnCanRead` reads that many bytes, or as many as there are. -/
  | onCanRead (length : Nat)
  /-- The next access of `rbuf_push`. -/
  | transport
  | input
  /-- The session is ended. -/
  | stop

def Outcome.next : Outcome → Main
  | .ok => .pop
  | .failed => .returned
  | .undefined => .undefined

/-- Where a message ends in the stream. -/
def endOf (position : Nat) (msg : Msg) : Nat :=
  match msg.getLast? with
  | some byte => byte.position + 1
  | none => position

def chunkOf (written : List (List UInt8)) (delivered length : Nat) : Msg :=
  ((streamOf written).drop delivered).take length

def inputNext (platform : Platform) (s : State) : Option State :=
  match s.main with
  | .loop =>
      if s.isActive then
        (consumerNext s.queue s.consumer (some (.peak ⟨true, true⟩))).map fun r =>
          { s with queue := r.1, consumer := r.2.1, main := .peaking }
      else some { s with main := .sleeping }
  | .peaking =>
      (consumerNext s.queue s.consumer none).map fun r =>
        { s with
          queue := r.1
          consumer := r.2.1
          main := match r.2.2 with
            | .peaked _ (some msg) => .handle msg
            | _ => .peaking }
  | .handle msg =>
      (inputRecvRaw platform s.session msg).map fun r =>
        { s with session := r.1, main := r.2.next, position := endOf s.position msg }
  | .pop =>
      (consumerNext s.queue s.consumer (some .pop)).map fun r =>
        { s with queue := r.1, consumer := r.2.1, main := .popping }
  | .popping =>
      (consumerNext s.queue s.consumer none).map fun r =>
        { s with
          queue := r.1
          consumer := r.2.1
          main := match r.2.2 with
            | .remove => .loop
            | _ => .popping }
  | .sleeping | .returned | .undefined => none

def next (platform : Platform) (s : State) : Action → Option State
  | .write state => (encodeGamepadState state).map fun payload =>
      { s with
        written := s.written ++ [payload]
        lastSentPackets := Function.update s.lastSentPackets state.clientIndex (some payload) }
  | .sendStateIfChanged state => (sendStateIfChanged s.lastSentPackets state).map fun r =>
      { s with written := s.written ++ r.1, lastSentPackets := r.2 }
  | .onCanRead length =>
      let chunk := chunkOf s.written s.delivered length
      (producerNext s.queue s.transport (some (.push chunk))).map fun r =>
        { s with queue := r.1, transport := r.2.1, delivered := s.delivered + chunk.length }
  | .transport => (producerNext s.queue s.transport none).map fun r =>
      { s with queue := r.1, transport := r.2.1 }
  | .input => inputNext platform s
  | .stop => some { s with isActive := false }

/-- The runs in which every action is allowed. -/
def system (platform : Platform) (memory : Fin 8 → Slot) (allowed : State → Action → Prop) :
    System State where
  init s := s = start memory
  step s t := ∃ action, allowed s action ∧ next platform s action = some t

/-- Actions one after the other, as long as they are allowed. -/
def run (platform : Platform) (allowed : State → Action → Prop)
    [∀ s action, Decidable (allowed s action)] : State → List Action → Option State
  | s, [] => some s
  | s, action :: actions =>
      if allowed s action then
        (next platform s action).bind fun t => run platform allowed t actions
      else none

theorem run_reachable {platform : Platform} {memory : Fin 8 → Slot}
    {allowed : State → Action → Prop} [∀ s action, Decidable (allowed s action)] {s t : State}
    {actions : List Action} (hs : (system platform memory allowed).Reachable s)
    (h : run platform allowed s actions = some t) : (system platform memory allowed).Reachable t := by
  induction actions generalizing s with
  | nil =>
      cases h
      exact hs
  | cons action actions ih =>
      simp only [run, Option.ite_none_right_eq_some] at h
      obtain ⟨hallowed, h⟩ := h
      obtain ⟨s₁, hnext, h⟩ := Option.bind_eq_some_iff.mp h
      exact ih (.next hs ⟨action, hallowed, hnext⟩) h

/-- The message that an action loses, and those behind it: `rbuf_push` refuses it, or
`_rbuf_pop_old` removes it. -/
def losing (s : State) : Action → Option (Msg × List Msg)
  | .transport =>
      match s.transport with
      | .pushTail msg head =>
          if freeCapacity s.queue.buf.size head s.queue.buf.tail = 0 then some (msg, []) else none
      | _ => none
  | .input =>
      match s.main, s.consumer, s.queue.buf.queue with
      | .peaking, .popWrite _ _, msg :: rest => some (msg, rest ++ s.transport.data.toList)
      | _, _, _ => none
  | _ => none

/-! ### A list that loses messages -/

/-- `pushing` is the message that `rbuf_push` has been called with, until it is in the
queue or refused. -/
structure Path where
  written : List (List UInt8)
  lastSentPackets : LastSentPackets
  delivered : Nat
  pushing : Option Msg
  queued : List Msg
  main : Main
  session : InputSession
  position : Nat

def State.path (s : State) : Path where
  written := s.written
  lastSentPackets := s.lastSentPackets
  delivered := s.delivered
  pushing := s.transport.data
  queued := s.queue.buf.queue
  main := s.main
  session := s.session
  position := s.position

/-- What of a step its environment decides. -/
inductive Label where
  | other
  | write (state : Frontend.GamepadState)
  | read (length : Nat)
  | lose (msg : Msg) (behind : List Msg)
  | handle (msg : Msg)

inductive Path.Step (platform : Platform) (x : Path) : Label → Path → Prop where
  | stutter : Step platform x .other x
  | write (state : Frontend.GamepadState) (payload : List UInt8)
      (hencode : encodeGamepadState state = some payload) :
      Step platform x (.write state)
        { x with
          written := x.written ++ [payload]
          lastSentPackets := Function.update x.lastSentPackets state.clientIndex (some payload) }
  | read (length : Nat) (hidle : x.pushing = none) :
      Step platform x (.read length)
        { x with
          delivered := x.delivered + (chunkOf x.written x.delivered length).length
          pushing := some (chunkOf x.written x.delivered length) }
  | append (msg : Msg) (hpushing : x.pushing = some msg) :
      Step platform x .other { x with pushing := none, queued := x.queued ++ [msg] }
  | refuse (msg : Msg) (hpushing : x.pushing = some msg) :
      Step platform x (.lose msg []) { x with pushing := none }
  | discard (msg : Msg) (rest : List Msg) (hmain : x.main = .peaking)
      (hqueued : x.queued = msg :: rest) :
      Step platform x (.lose msg (rest ++ x.pushing.toList)) { x with queued := rest }
  | peak (hmain : x.main = .loop) : Step platform x .other { x with main := .peaking }
  | sleep (hmain : x.main = .loop) : Step platform x .other { x with main := .sleeping }
  | take (msg : Msg) (hmain : x.main = .peaking) (hqueued : x.queued.head? = some msg) :
      Step platform x .other { x with main := .handle msg }
  | handle (msg : Msg) (session : InputSession) (outcome : Outcome) (hmain : x.main = .handle msg)
      (hrecv : inputRecvRaw platform x.session msg = some (session, outcome)) :
      Step platform x (.handle msg)
        { x with session := session, main := outcome.next, position := endOf x.position msg }
  | pop (hmain : x.main = .pop) : Step platform x .other { x with main := .popping }
  | remove (msg : Msg) (rest : List Msg) (hmain : x.main = .popping)
      (hqueued : x.queued = msg :: rest) :
      Step platform x .other { x with queued := rest, main := .loop }

def Path.system (platform : Platform) (memory : Fin 8 → Slot) (allowed : Path → Label → Prop) :
    System Path where
  init x := x = (start memory).path
  step x y := ∃ label, allowed x label ∧ Path.Step platform x label y

/-! ### The queue is such a list -/

/-- Which labels an action can have. -/
def Shows (s : State) (action : Action) : Label → Prop
  | .other => True
  | .write state => action = .write state ∨ action = .sendStateIfChanged state
  | .read length => action = .onCanRead length
  | .lose msg behind => losing s action = some (msg, behind)
  | .handle msg => action = .input ∧ s.main = .handle msg

abbrev State.Queue (s : State) : Prop := Common.Rbuf.Reachable 8 s.queue s.transport s.consumer

theorem start_queue (memory : Fin 8 → Slot) : (start memory).Queue := by
  have hstart : Common.Rbuf.Reachable 8 (Rbuf.Shared.start 8 : Rbuf.Shared Msg) .idle .idle :=
    .start ⟨rfl, rfl, rfl⟩
  have hcall : producerNext (Rbuf.Shared.start 8) .idle (some .setFree) =
      some (startQueue, .idle, .internal) := rfl
  exact hstart.producer hcall

theorem start_queued (memory : Fin 8 → Slot) : (start memory).path.queued = [] := by
  simp only [State.path, start]
  decide

variable {platform : Platform} {s t : State}

theorem transport_refines (hs : s.Queue) (h : next platform s .transport = some t) :
    t.Queue ∧ ∃ label, Path.Step platform s.path label t.path ∧ Shows s .transport label := by
  obtain ⟨⟨queue, transport, event⟩, hnext, rfl⟩ := Option.map_eq_some_iff.mp h
  refine ⟨hs.producer hnext, ?_⟩
  obtain ⟨hqueue, hdata⟩ | ⟨msg, hdata, hdata', hqueue⟩ | ⟨msg, head, hpush, hfull, hdata', hqueue⟩ :=
    Common.Rbuf.producer_step (by decide) hs hnext
  · refine ⟨.other, ?_, trivial⟩
    have heq : State.path { s with queue := queue, transport := transport } = s.path := by
      simp only [State.path, hqueue, hdata]
    rw [heq]
    exact .stutter
  · refine ⟨.other, ?_, trivial⟩
    have heq : State.path { s with queue := queue, transport := transport } =
        { s.path with pushing := none, queued := s.path.queued ++ [msg] } := by
      simp only [State.path, hqueue, hdata']
    rw [heq]
    exact .append msg hdata
  · refine ⟨.lose msg [], ?_, ?_⟩
    · have heq : State.path { s with queue := queue, transport := transport } =
          { s.path with pushing := none } := by
        simp only [State.path, hqueue, hdata']
      rw [heq]
      refine .refuse msg ?_
      change s.transport.data = some msg
      rw [hpush]
      rfl
    · change losing s .transport = some (msg, [])
      simp only [losing, hpush, hfull, if_true]

theorem peaking_refines (hs : s.Queue) (hmain : s.main = .peaking)
    (h : inputNext platform s = some t) :
    t.Queue ∧ ∃ label, Path.Step platform s.path label t.path ∧ Shows s .input label := by
  simp only [inputNext, hmain] at h
  obtain ⟨⟨queue, consumer, event⟩, hnext, rfl⟩ := Option.map_eq_some_iff.mp h
  refine ⟨hs.consumer hnext, ?_⟩
  obtain ⟨hqueue, hevent⟩ | ⟨inside, tail, msg, hpc, rfl, hqueue⟩ | ⟨op, msg, rfl, hhead, hqueue⟩ :=
    Common.Rbuf.consumer_step (by decide) hs hnext
  · refine ⟨.other, ?_, trivial⟩
    have heq : State.path { s with queue := queue, consumer := consumer, main := .peaking } =
        s.path := by
      simp only [State.path, hqueue, hmain]
    obtain rfl | ⟨op, rfl⟩ := hevent
    · exact heq ▸ .stutter
    · exact heq ▸ .stutter
  · refine ⟨.lose msg (queue.buf.queue ++ s.transport.data.toList), ?_, ?_⟩
    · have heq : State.path { s with queue := queue, consumer := consumer, main := .peaking } =
          { s.path with queued := queue.buf.queue } := by
        simp only [State.path, hmain]
      exact heq ▸ .discard msg _ hmain hqueue
    · change losing s .input = _
      simp only [losing, hmain, hpc, hqueue]
  · refine ⟨.other, ?_, trivial⟩
    have heq : State.path { s with queue := queue, consumer := consumer, main := .handle msg } =
        { s.path with main := .handle msg } := by
      simp only [State.path, hqueue]
    exact heq ▸ .take msg hmain hhead

theorem popping_refines (hs : s.Queue) (hmain : s.main = .popping)
    (h : inputNext platform s = some t) :
    t.Queue ∧ ∃ label, Path.Step platform s.path label t.path ∧ Shows s .input label := by
  simp only [inputNext, hmain] at h
  obtain ⟨⟨queue, consumer, event⟩, hnext, rfl⟩ := Option.map_eq_some_iff.mp h
  refine ⟨hs.consumer hnext, .other, ?_, trivial⟩
  obtain ⟨hqueue, hevent⟩ | ⟨inside, tail, msg, hpc, rfl, hqueue⟩ | ⟨op, msg, rfl, hhead, hqueue⟩ :=
    Common.Rbuf.consumer_step (by decide) hs hnext
  · have heq : State.path { s with queue := queue, consumer := consumer, main := .popping } =
        s.path := by
      simp only [State.path, hqueue, hmain]
    obtain rfl | ⟨op, rfl⟩ := hevent
    · exact heq ▸ .stutter
    · exact heq ▸ .stutter
  · have heq : State.path { s with queue := queue, consumer := consumer, main := .loop } =
        { s.path with queued := queue.buf.queue, main := .loop } := rfl
    exact heq ▸ .remove msg _ hmain hqueue
  · have heq : State.path { s with queue := queue, consumer := consumer, main := .popping } =
        s.path := by
      simp only [State.path, hqueue, hmain]
    exact heq ▸ .stutter

theorem input_refines (hs : s.Queue) (h : inputNext platform s = some t) :
    t.Queue ∧ ∃ label, Path.Step platform s.path label t.path ∧ Shows s .input label := by
  cases hmain : s.main with
  | peaking => exact peaking_refines hs hmain h
  | popping => exact popping_refines hs hmain h
  | loop =>
      simp only [inputNext, hmain] at h
      split at h
      · obtain ⟨⟨queue, consumer, event⟩, hnext, rfl⟩ := Option.map_eq_some_iff.mp h
        refine ⟨hs.consumer hnext, .other, ?_, trivial⟩
        have heq : State.path { s with queue := queue, consumer := consumer, main := .peaking } =
            { s.path with main := .peaking } := by
          simp only [State.path, Common.Rbuf.consumer_call (by decide) hs hnext]
        exact heq ▸ .peak hmain
      · cases h
        exact ⟨hs, .other, .sleep hmain, trivial⟩
  | handle msg =>
      simp only [inputNext, hmain] at h
      obtain ⟨⟨session, outcome⟩, hrecv, rfl⟩ := Option.map_eq_some_iff.mp h
      exact ⟨hs, .handle msg, .handle msg session outcome hmain hrecv, rfl, hmain⟩
  | pop =>
      simp only [inputNext, hmain] at h
      obtain ⟨⟨queue, consumer, event⟩, hnext, rfl⟩ := Option.map_eq_some_iff.mp h
      refine ⟨hs.consumer hnext, .other, ?_, trivial⟩
      have heq : State.path { s with queue := queue, consumer := consumer, main := .popping } =
          { s.path with main := .popping } := by
        simp only [State.path, Common.Rbuf.consumer_call (by decide) hs hnext]
      exact heq ▸ .pop hmain
  | sleeping => simp [inputNext, hmain] at h
  | returned => simp [inputNext, hmain] at h
  | undefined => simp [inputNext, hmain] at h

theorem client_refines {state : Frontend.GamepadState}
    (h : next platform s (.sendStateIfChanged state) = some t) :
    (t.queue = s.queue ∧ t.transport = s.transport ∧ t.consumer = s.consumer) ∧
      ∃ label, Path.Step platform s.path label t.path ∧ Shows s (.sendStateIfChanged state) label := by
  simp only [next, sendStateIfChanged, Option.map_map] at h
  obtain ⟨payload, hencode, rfl⟩ := Option.map_eq_some_iff.mp h
  dsimp only [Function.comp_apply]
  split
  · refine ⟨⟨rfl, rfl, rfl⟩, .other, ?_, trivial⟩
    have heq : State.path { s with written := s.written ++ [] } = s.path := by
      simp only [State.path, List.append_nil]
    exact heq ▸ .stutter
  · exact ⟨⟨rfl, rfl, rfl⟩, .write state, .write state payload hencode, .inr rfl⟩

theorem next_refines {action : Action} (hs : s.Queue) (h : next platform s action = some t) :
    t.Queue ∧ ∃ label, Path.Step platform s.path label t.path ∧ Shows s action label := by
  cases action with
  | write state =>
      obtain ⟨payload, hencode, rfl⟩ := Option.map_eq_some_iff.mp h
      exact ⟨hs, .write state, .write state payload hencode, .inl rfl⟩
  | sendStateIfChanged state =>
      obtain ⟨⟨hqueue, htransport, hconsumer⟩, hstep⟩ := client_refines h
      refine ⟨?_, hstep⟩
      rw [State.Queue, hqueue, htransport, hconsumer]
      exact hs
  | onCanRead length =>
      obtain ⟨⟨queue, transport, event⟩, hnext, rfl⟩ := Option.map_eq_some_iff.mp h
      obtain ⟨hidle, hqueue, hdata⟩ := Common.Rbuf.push_call (by decide) hs hnext
      refine ⟨hs.producer hnext, .read length, ?_, rfl⟩
      have heq : State.path
          { s with
            queue := queue
            transport := transport
            delivered := s.delivered + (chunkOf s.written s.delivered length).length } =
          { s.path with
            delivered := s.delivered + (chunkOf s.written s.delivered length).length
            pushing := some (chunkOf s.written s.delivered length) } := by
        simp only [State.path, hqueue, hdata]
      refine heq ▸ .read length ?_
      change s.transport.data = none
      rw [hidle]
      rfl
  | transport => exact transport_refines hs h
  | input => exact input_refines hs h
  | stop =>
      cases h
      exact ⟨hs, .other, .stutter, trivial⟩

theorem path_reachable {memory : Fin 8 → Slot} {allowed : State → Action → Prop}
    {allowed' : Path → Label → Prop}
    (hallowed : ∀ s action label, allowed s action → Shows s action label → allowed' s.path label)
    (hs : (system platform memory allowed).Reachable s) :
    (Path.system platform memory allowed').Reachable s.path := by
  have hboth : s.Queue ∧ (Path.system platform memory allowed').Reachable s.path := by
    refine System.Reachable.invariant
      (fun s => s.Queue ∧ (Path.system platform memory allowed').Reachable s.path) ?_ ?_ hs
    · rintro s rfl
      exact ⟨start_queue memory, .start rfl⟩
    · rintro s t ⟨hqueue, hpath⟩ ⟨action, haction, hnext⟩
      obtain ⟨hqueue', label, hstep, hshows⟩ := next_refines hqueue hnext
      exact ⟨hqueue', .next hpath ⟨label, hallowed s action label haction hshows, hstep⟩⟩
  exact hboth.2

end Stratus.Input
