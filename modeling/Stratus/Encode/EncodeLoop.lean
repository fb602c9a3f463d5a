import Stratus.Encode.KeyFrames
import Stratus.Transport.TransportThread

/-! The loop of `encode_main` beside the thread of the transport.  Nothing is encoded before there
is a client, so every packet of the encoder comes into a stream. -/
namespace Stratus.Encode

open Stratus.Lib Stratus.Transport Stratus.Frontend

variable {R : RingBuffer Bytes}

/-- What a frame of the capture is in, and whether `egl_capture_dmabuf_frame` can read it. -/
inductive FrameBuffer where
  | shm
  | dma (captured : Bool)
  | none

/-- What the codec answers to one frame: the result of `avcodec_send_frame`, then the packets, each
with whether there is memory for it, and the result that ends them. -/
structure CodecAnswers where
  send : Int
  packets : List (AVPacket × Bool)
  last : Int

/-- Where the thread is; `final` is the call of `encoder_teardown`. -/
inductive EncodePhase where
  | waiting
  | receiving (final : Bool) (packets : List (AVPacket × Bool)) (last : Int)
  | failed
  | ended

/-- The frame counts, the `pts` of the frames that the codec was given, and the packets that have
been pushed. -/
structure Encoder where
  phase : EncodePhase
  encoded : Nat
  droppedPreConnect : Nat
  droppedBufFull : Nat
  pts : List Nat
  pushed : List AVPacket

structure Pipeline (R : RingBuffer Bytes) where
  encoder : Encoder
  transport : TransportSession R

/-- The steps of the encoder: it takes a frame, it receives a packet or the end of them, and it
flushes the codec, when the session has ended or after an error. -/
inductive PipelineStep where
  | take (buffer : FrameBuffer) (answers : CodecAnswers)
  | receive
  | teardown (answers : CodecAnswers)
  | transport (event : TransportEvent)

namespace Encoder

def start : Encoder where
  phase := .waiting
  encoded := 0
  droppedPreConnect := 0
  droppedBufFull := 0
  pts := []
  pushed := []

/-- What `avcodec_send_and_receive` begins with. -/
def send (e : Encoder) (final : Bool) (answers : CodecAnswers) : Encoder :=
  if answers.send < 0 then
    if final then { e with phase := .ended } else { e with phase := .failed, encoded := e.encoded + 1 }
  else { e with phase := .receiving final answers.packets answers.last }

/-- What it ends with. -/
def finish (e : Encoder) (final : Bool) (ret : Int) : Encoder :=
  if final then { e with phase := .ended }
  else
    { e with
      phase := if ret = 0 then .waiting else .failed
      encoded := e.encoded + 1 }

/-- `encode_video_frame`. -/
def encodeVideoFrame (e : Encoder) (answers : CodecAnswers) : Encoder :=
  { e with pts := e.pts ++ [e.encoded] }.send false answers

def take (e : Encoder) (full connected : Bool) (answers : CodecAnswers) : FrameBuffer → Encoder
  | buffer =>
      if full then { e with droppedBufFull := e.droppedBufFull + 1 }
      else if !connected then { e with droppedPreConnect := e.droppedPreConnect + 1 }
      else
        match buffer with
        | .shm => e.encodeVideoFrame answers
        | .dma true => e.encodeVideoFrame answers
        | .dma false => { e with phase := .failed }
        | .none => e

end Encoder

/-- The result of `avcodec_send_and_receive` when there are no more packets. -/
def endResult (last : Int) : Int := if last = averrorEagain ∨ last = averrorEof then 0 else last

namespace Pipeline

def start (R : RingBuffer Bytes) : Pipeline R := ⟨.start, .start R⟩

/-- A packet is pushed, or the end of the packets is reached. -/
def receive (p : Pipeline R) : Option (Pipeline R) :=
  match p.encoder.phase with
  | .receiving final [] last => some { p with encoder := p.encoder.finish final (endResult last) }
  | .receiving final ((packet, allocated) :: packets) last =>
      if !allocated then some { p with encoder := p.encoder.finish final (-1) }
      else
        match p.transport.next (.pushVideo (toFrame packet)) with
        | none => some { p with encoder := p.encoder.finish final (-1) }
        | some transport =>
            some {
              encoder := { p.encoder with
                phase := .receiving final packets last
                pushed := p.encoder.pushed ++ [packet] }
              transport := transport }
  | .waiting => none
  | .failed => none
  | .ended => none

def next (p : Pipeline R) : PipelineStep → Option (Pipeline R)
  | .take buffer answers =>
      match p.encoder.phase with
      | .waiting =>
          let full := decide (videoQueueCapacity ≤ p.transport.video.queue.length)
          some { p with encoder := p.encoder.take full p.transport.connected answers buffer }
      | .receiving .. => none
      | .failed => none
      | .ended => none
  | .receive => p.receive
  | .teardown answers =>
      match p.encoder.phase with
      | .waiting => some { p with encoder := p.encoder.send true answers }
      | .failed => some { p with encoder := p.encoder.send true answers }
      | .receiving .. => none
      | .ended => none
  | .transport event =>
      if event.video?.isSome then none
      else (p.transport.next event).map fun transport => { p with transport := transport }

/-- A codec that has been given no frame returns no packet. -/
def Plausible (p : Pipeline R) : PipelineStep → Prop
  | .teardown answers => p.encoder.pts = [] → answers.packets = []
  | .transport (.media step) => p.transport.session.Orderly step
  | _ => True

def system (R : RingBuffer Bytes) (allowed : Pipeline R → PipelineStep → Prop) :
    Labelled (Pipeline R) PipelineStep where
  init p := p = start R
  step p step q := allowed p step ∧ p.next step = some q

end Pipeline

/-! ## The encoder -/

namespace EncodePhase

/-- The packets that are still to be pushed. -/
def packets : EncodePhase → List (AVPacket × Bool)
  | .receiving _ packets _ => packets
  | .waiting => []
  | .failed => []
  | .ended => []

/-- A frame has been given to the codec and is not counted yet. -/
def uncounted : EncodePhase → Nat
  | .receiving final _ _ => if final then 0 else 1
  | .waiting => 0
  | .failed => 0
  | .ended => 0

end EncodePhase

namespace Encoder

/-- The frames are numbered without a gap, and there are none without a client. -/
structure Good (e : Encoder) (connected : Bool) : Prop where
  pts : e.pts = List.range e.pts.length
  count : e.pts.length = e.encoded + e.phase.uncounted
  alone : connected = false → e.pts = [] ∧ e.phase.packets = []

variable {e : Encoder} {connected : Bool} {answers : CodecAnswers}

theorem Good.mono {later : Bool} (h : e.Good connected) (hlater : connected = true → later = true) :
    e.Good later := by
  refine ⟨h.pts, h.count, fun hfalse => h.alone ?_⟩
  cases connected with
  | false => rfl
  | true => exact absurd (hlater rfl) (Bool.eq_false_iff.mp hfalse)

theorem Good.encodeVideoFrame (h : e.Good true) (hwaiting : e.phase = .waiting) (answers : CodecAnswers) :
    (e.encodeVideoFrame answers).Good true ∧ (e.encodeVideoFrame answers).pushed = e.pushed := by
  have hcount : e.pts.length = e.encoded := by
    have hcount := h.count
    rwa [hwaiting] at hcount
  have hpts : e.pts ++ [e.encoded] = List.range (e.pts ++ [e.encoded]).length := by
    rw [List.length_append, List.length_singleton, List.range_succ, ← h.pts, hcount]
  have hlength : (e.pts ++ [e.encoded]).length = e.encoded + 1 := by
    rw [List.length_append, hcount]
    rfl
  rw [Encoder.encodeVideoFrame, send]
  split
  · exact ⟨⟨hpts, hlength, fun hfalse => Bool.noConfusion hfalse⟩, rfl⟩
  · exact ⟨⟨hpts, hlength, fun hfalse => Bool.noConfusion hfalse⟩, rfl⟩

theorem Good.take (h : e.Good connected) (hwaiting : e.phase = .waiting) (full : Bool)
    (answers : CodecAnswers) (buffer : FrameBuffer) :
    (e.take full connected answers buffer).Good connected ∧
      (e.take full connected answers buffer).pushed = e.pushed := by
  unfold Encoder.take
  cases full with
  | true => exact ⟨⟨h.pts, h.count, h.alone⟩, rfl⟩
  | false =>
      cases connected with
      | false => exact ⟨⟨h.pts, h.count, h.alone⟩, rfl⟩
      | true =>
          have hcount := h.count
          rw [hwaiting] at hcount
          cases buffer with
          | shm => exact h.encodeVideoFrame hwaiting answers
          | dma captured =>
              cases captured with
              | true => exact h.encodeVideoFrame hwaiting answers
              | false => exact ⟨⟨h.pts, hcount, fun hfalse => Bool.noConfusion hfalse⟩, rfl⟩
          | none => exact ⟨h, rfl⟩

theorem Good.teardown (h : e.Good connected) (hcounted : e.phase.uncounted = 0)
    (hallowed : e.pts = [] → answers.packets = []) :
    (e.send true answers).Good connected ∧ (e.send true answers).pushed = e.pushed := by
  have hcount := h.count
  rw [hcounted] at hcount
  rw [send]
  split
  · exact ⟨⟨h.pts, hcount, fun hfalse => ⟨(h.alone hfalse).1, rfl⟩⟩, rfl⟩
  · exact ⟨⟨h.pts, hcount, fun hfalse => ⟨(h.alone hfalse).1, hallowed (h.alone hfalse).1⟩⟩, rfl⟩

theorem Good.finish (h : e.Good connected) {final : Bool} {packets : List (AVPacket × Bool)} {last : Int}
    (hphase : e.phase = .receiving final packets last) (ret : Int) :
    (e.finish final ret).Good connected ∧ (e.finish final ret).pushed = e.pushed := by
  have hcount := h.count
  rw [hphase] at hcount
  unfold Encoder.finish
  cases final with
  | true => exact ⟨⟨h.pts, hcount, fun hfalse => ⟨(h.alone hfalse).1, rfl⟩⟩, rfl⟩
  | false =>
      have hend : (if ret = 0 then EncodePhase.waiting else .failed).uncounted = 0 ∧
          (if ret = 0 then EncodePhase.waiting else .failed).packets = [] := by
        split <;> exact ⟨rfl, rfl⟩
      refine ⟨⟨h.pts, ?_, fun hfalse => ⟨(h.alone hfalse).1, hend.2⟩⟩, rfl⟩
      show e.pts.length = e.encoded + 1 + (if ret = 0 then EncodePhase.waiting else .failed).uncounted
      rw [hend.1]
      exact hcount

theorem Good.push (h : e.Good true) {final : Bool} {packet : AVPacket × Bool}
    {packets : List (AVPacket × Bool)} {last : Int}
    (hphase : e.phase = .receiving final (packet :: packets) last) (pushed : List AVPacket) :
    Good { e with phase := .receiving final packets last, pushed := pushed } true := by
  have hcount := h.count
  rw [hphase] at hcount
  exact ⟨h.pts, hcount, fun hfalse => Bool.noConfusion hfalse⟩

end Encoder

/-! ## What the transport gets -/

namespace Pipeline

variable {p q : Pipeline R} {step : PipelineStep}

/-- These events of the transport have happened. -/
structure Inv (events : List TransportEvent) (p : Pipeline R) : Prop where
  run : (TransportSession.system R MediaSession.Orderly).Run events p.transport
  pushed : events.filterMap TransportEvent.video? = p.encoder.pushed.map toFrame
  early : (early events).filterMap TransportEvent.video? = []
  encoder : p.encoder.Good p.transport.connected

/-- What is left behind when a packet has been pushed. -/
def pushedPacket (p : Pipeline R) (transport : TransportSession R) (final : Bool) (packet : AVPacket)
    (packets : List (AVPacket × Bool)) (last : Int) : Pipeline R where
  encoder := { p.encoder with
    phase := .receiving final packets last
    pushed := p.encoder.pushed ++ [packet] }
  transport := transport

/-- All that a call of `avcodec_receive_packet` can lead to. -/
theorem receive_cases (hnext : p.receive = some q) :
    ∃ final packets last, p.encoder.phase = .receiving final packets last ∧
      ((packets = [] ∧ q = { p with encoder := p.encoder.finish final (endResult last) }) ∨
        (∃ first rest, packets = first :: rest ∧
          (first.2 = false ∨ p.transport.next (.pushVideo (toFrame first.1)) = none) ∧
          q = { p with encoder := p.encoder.finish final (-1) }) ∨
        ∃ packet rest transport, packets = (packet, true) :: rest ∧
          p.transport.next (.pushVideo (toFrame packet)) = some transport ∧
          q = p.pushedPacket transport final packet rest last) := by
  unfold Pipeline.receive at hnext
  cases hphase : p.encoder.phase with
  | receiving final packets last =>
      refine ⟨final, packets, last, rfl, ?_⟩
      rw [hphase] at hnext
      cases packets with
      | nil => exact .inl ⟨rfl, (Option.some.inj hnext).symm⟩
      | cons first packets =>
          obtain ⟨packet, allocated⟩ := first
          cases allocated with
          | false => exact .inr (.inl ⟨_, _, rfl, .inl rfl, (Option.some.inj hnext).symm⟩)
          | true =>
              dsimp only at hnext
              cases hpush : p.transport.next (.pushVideo (toFrame packet)) with
              | none =>
                  rw [hpush] at hnext
                  exact .inr (.inl ⟨_, _, rfl, .inr hpush, (Option.some.inj hnext).symm⟩)
              | some transport =>
                  rw [hpush] at hnext
                  exact .inr (.inr ⟨packet, packets, transport, rfl, hpush, (Option.some.inj hnext).symm⟩)
  | waiting | failed | ended =>
      rw [hphase] at hnext
      cases hnext

theorem push_connected {s t : TransportSession R} {frame : VideoFrame}
    (hpush : s.next (.pushVideo frame) = some t) : t.connected = s.connected := by
  obtain ⟨video, -, rfl⟩ := Option.map_eq_some_iff.mp hpush
  rfl

/-- A packet is pushed when there is a client. -/
theorem Inv.push {events : List TransportEvent} (h : Inv events p) {final : Bool} {packet : AVPacket}
    {allocated : Bool} {packets : List (AVPacket × Bool)} {last : Int} {transport : TransportSession R}
    (hphase : p.encoder.phase = .receiving final ((packet, allocated) :: packets) last)
    (hpush : p.transport.next (.pushVideo (toFrame packet)) = some transport) :
    ∃ events', Inv events' (p.pushedPacket transport final packet packets last) := by
  have hconnected : p.transport.connected = true := by
    by_contra hnot
    have hnone := (h.encoder.alone (Bool.eq_false_iff.mpr hnot)).2
    rw [hphase] at hnone
    cases hnone
  have hgood := h.encoder
  rw [hconnected] at hgood
  refine ⟨events ++ [.pushVideo (toFrame packet)], .next h.run ⟨fun step heq => ?_, hpush⟩, ?_, ?_, ?_⟩
  · cases heq
  · show _ = (p.encoder.pushed ++ [packet]).map toFrame
    rw [List.filterMap_append, h.pushed, List.map_append]
    rfl
  · rw [TransportSession.early_connected ((TransportSession.run_inv h.run).connected.symm.trans hconnected)]
    exact h.early
  · show Encoder.Good _ transport.connected
    rw [push_connected hpush, hconnected]
    exact hgood.push hphase _

/-- The transport does something else. -/
theorem Inv.transport {events : List TransportEvent} (h : Inv events p) {event : TransportEvent}
    {transport : TransportSession R} (hvideo : event.video? = none)
    (horderly : ∀ step, event = .media step → p.transport.session.Orderly step)
    (hnext : p.transport.next event = some transport) :
    Inv (events ++ [event]) { p with transport := transport } := by
  have hrun : (TransportSession.system R MediaSession.Orderly).Run (events ++ [event]) transport :=
    .next h.run ⟨horderly, hnext⟩
  refine ⟨hrun, ?_, ?_, h.encoder.mono fun hconnected => ?_⟩
  · rw [List.filterMap_append, TransportSession.filterMap_one, hvideo, h.pushed]
    exact List.append_nil _
  · have hsofar := (TransportSession.early_snoc events event).filterMap TransportEvent.video?
    rw [List.filterMap_append, h.early, TransportSession.filterMap_one, hvideo] at hsofar
    exact List.prefix_nil.mp hsofar
  · show transport.connected = true
    rw [(TransportSession.run_inv hrun).connected, List.any_append,
      ← (TransportSession.run_inv h.run).connected, hconnected]
    rfl

theorem Inv.finish {events : List TransportEvent} (h : Inv events p) {final : Bool}
    {packets : List (AVPacket × Bool)} {last : Int} (hphase : p.encoder.phase = .receiving final packets last)
    (ret : Int) : Inv events { p with encoder := p.encoder.finish final ret } := by
  obtain ⟨hgood, hpushed⟩ := h.encoder.finish hphase ret
  exact ⟨h.run, h.pushed.trans (congrArg _ hpushed.symm), h.early, hgood⟩

theorem Inv.receive {events : List TransportEvent} (h : Inv events p) (hnext : p.receive = some q) :
    ∃ events', Inv events' q := by
  obtain ⟨final, packets, last, hphase, hend | hfailed | hpushed⟩ := receive_cases hnext
  · obtain ⟨-, rfl⟩ := hend
    exact ⟨events, h.finish hphase _⟩
  · obtain ⟨first, rest, rfl, -, rfl⟩ := hfailed
    exact ⟨events, h.finish hphase _⟩
  · obtain ⟨packet, rest, transport, rfl, hpush, rfl⟩ := hpushed
    exact h.push hphase hpush

theorem Inv.next {events : List TransportEvent} (h : Inv events p) (hallowed : p.Plausible step)
    (hnext : p.next step = some q) : ∃ events', Inv events' q := by
  cases step with
  | take buffer answers =>
      rw [Pipeline.next] at hnext
      cases hphase : p.encoder.phase with
      | waiting =>
          rw [hphase] at hnext
          cases hnext
          obtain ⟨hgood, hpushed⟩ := h.encoder.take hphase
            (decide (videoQueueCapacity ≤ p.transport.video.queue.length)) answers buffer
          exact ⟨events, h.run, h.pushed.trans (congrArg _ hpushed.symm), h.early, hgood⟩
      | receiving | failed | ended =>
          rw [hphase] at hnext
          cases hnext
  | receive => exact h.receive hnext
  | teardown answers =>
      have hteardown : p.encoder.phase.uncounted = 0 → q = { p with encoder := p.encoder.send true answers } →
          ∃ events', Inv events' q := by
        rintro hcounted rfl
        obtain ⟨hgood, hpushed⟩ := h.encoder.teardown hcounted hallowed
        exact ⟨events, h.run, h.pushed.trans (congrArg _ hpushed.symm), h.early, hgood⟩
      rw [Pipeline.next] at hnext
      cases hphase : p.encoder.phase with
      | waiting | failed =>
          rw [hphase] at hnext hteardown
          exact hteardown rfl (Option.some.inj hnext).symm
      | receiving | ended =>
          rw [hphase] at hnext
          cases hnext
  | transport event =>
      rw [Pipeline.next] at hnext
      split at hnext
      · cases hnext
      · next hvideo =>
        obtain ⟨transport, htransport, rfl⟩ := Option.map_eq_some_iff.mp hnext
        refine ⟨_, h.transport (Option.not_isSome_iff_eq_none.mp hvideo) ?_ htransport⟩
        rintro step rfl
        exact hallowed

theorem run_inv {trace : List PipelineStep} (hp : (system R Plausible).Run trace p) :
    ∃ events, Inv events p := by
  refine hp.always (fun p => ∃ events, Inv events p) ?_ ?_
  · rintro p rfl
    exact ⟨[], .start rfl, rfl, rfl, rfl, rfl, fun _ => ⟨rfl, rfl⟩⟩
  · intro p step q h hstep
    obtain ⟨events, h⟩ := h
    exact h.next hstep.1 hstep.2

/-- No packet that has been pushed is dropped; each is in the streams, once and in order, or waits in
the queue.  The frames that the codec got were numbered without a gap. -/
theorem packets_written_once {trace : List PipelineStep} (hp : (system R Plausible).Run trace p) :
    p.transport.video.dropped = [] ∧
      p.transport.video.sent ++ p.transport.video.queue = p.encoder.pushed.map toFrame ∧
      Packets submitVideoDataToStream (bytesOf true (sides p.transport.session)) p.transport.video.sent ∧
      p.encoder.pts = List.range p.encoder.pts.length ∧
      p.encoder.pts.length = p.encoder.encoded + p.encoder.phase.uncounted := by
  obtain ⟨events, h⟩ := run_inv hp
  have hinv := TransportSession.run_inv h.run
  have hdropped : p.transport.video.dropped = [] := by
    have hearly := hinv.video.early
    rw [h.early] at hearly
    exact List.prefix_nil.mp hearly
  have hall := hinv.video.all
  rw [hdropped, List.nil_append, h.pushed] at hall
  exact ⟨hdropped, hall, hinv.written.videoPackets, h.encoder.pts, h.encoder.count⟩

/-- What the worker of the client takes off are the packets of the encoder, from the very first on
and without a gap. -/
theorem packets_to_worker (fifo : R.Fifo) {trace : List PipelineStep}
    (hp : (system R Plausible).Run trace p) (hone : TransportSession.OneVideo p.transport.session) :
    p.transport.session.worker.extracted <+:
      (p.encoder.pushed.map toFrame).map VideoReading.packet := by
  obtain ⟨events, h⟩ := run_inv hp
  have hearly := (TransportSession.run_inv h.run).video.early
  rw [h.early] at hearly
  have hsofar := TransportSession.extracted_prefix fifo h.run hone
  rwa [List.prefix_nil.mp hearly, List.length_nil, List.drop_zero, h.pushed] at hsofar

/-! ## The queue is never full -/

/-- The codec returns one packet for a frame at most, as it does with zero latency, and nothing
fails but a push. -/
def Smooth (_ : Pipeline R) : PipelineStep → Prop
  | .take buffer answers =>
      buffer ≠ .dma false ∧ 0 ≤ answers.send ∧ answers.packets.length ≤ 1 ∧
        (∀ packet ∈ answers.packets, packet.2 = true) ∧
        (answers.last = averrorEagain ∨ answers.last = averrorEof)
  | _ => True

/-- There is room for what the codec has returned. -/
structure Steady (p : Pipeline R) : Prop where
  failed : p.encoder.phase ≠ .failed
  room : ∀ packets last, p.encoder.phase = .receiving false packets last →
    (last = averrorEagain ∨ last = averrorEof) ∧ (∀ packet ∈ packets, packet.2 = true) ∧
      p.transport.video.queue.length + packets.length ≤ videoQueueCapacity

theorem queue_takeVideo (s : TransportSession R) (answer : WriteAnswer) :
    (s.takeVideo answer).video.queue.length ≤ s.video.queue.length := by
  unfold TransportSession.takeVideo
  cases hqueue : s.video.queue with
  | nil => exact Nat.le_of_eq (congrArg List.length hqueue)
  | cons frame queue =>
      dsimp only
      split
      · rw [Lane.submitted]
        split
        · exact (List.length_tail).trans_le (hqueue ▸ Nat.sub_le _ _)
        · exact hqueue ▸ Nat.le_refl _
      · exact (List.length_tail).trans_le (hqueue ▸ Nat.sub_le _ _)

theorem video_takeAudio (s : TransportSession R) (answer : WriteAnswer) :
    (s.takeAudio answer).video = s.video := by
  unfold TransportSession.takeAudio
  cases s.audio.queue with
  | nil => rfl
  | cons frame queue =>
      dsimp only
      split <;> rfl

/-- Only the encoder makes the queue longer. -/
theorem queue_next {s t : TransportSession R} {event : TransportEvent} (hvideo : event.video? = none)
    (hnext : s.next event = some t) : t.video.queue.length ≤ s.video.queue.length := by
  cases event with
  | pushVideo frame => cases hvideo
  | pushAudio frame =>
      obtain ⟨audio, -, rfl⟩ := Option.map_eq_some_iff.mp hnext
      exact Nat.le_refl _
  | request =>
      rw [TransportSession.next] at hnext
      split at hnext <;> cases hnext <;> exact Nat.le_refl _
  | sessionClosed =>
      rw [TransportSession.next] at hnext
      split at hnext <;> cases hnext
      exact Nat.le_refl _
  | stop =>
      cases hnext
      exact Nat.le_refl _
  | iteration video audio =>
      rw [TransportSession.next] at hnext
      split at hnext <;> cases hnext
      rw [video_takeAudio]
      exact queue_takeVideo s video
  | media step =>
      rw [TransportSession.next] at hnext
      split at hnext
      · obtain ⟨session, -, rfl⟩ := Option.map_eq_some_iff.mp hnext
        exact Nat.le_refl _
      · cases hnext

/-- No frame is being encoded. -/
theorem steady_of {p : Pipeline R} (hfailed : p.encoder.phase ≠ .failed)
    (hnot : ∀ packets last, p.encoder.phase ≠ .receiving false packets last) : p.Steady :=
  ⟨hfailed, fun packets last hphase => absurd hphase (hnot packets last)⟩

theorem steady_take {answers : CodecAnswers} {buffer : FrameBuffer} (hphase : p.encoder.phase = .waiting)
    (hsmooth : p.Smooth (.take buffer answers)) :
    Steady { p with
      encoder := p.encoder.take (decide (videoQueueCapacity ≤ p.transport.video.queue.length))
        p.transport.connected answers buffer } := by
  obtain ⟨hbuffer, hsend, hone, hallocated, hlast⟩ := hsmooth
  have hwaiting : ∀ e : Encoder, e.phase = .waiting → Steady { p with encoder := e } := fun e he =>
    steady_of (fun hfailed => EncodePhase.noConfusion (he.symm.trans hfailed))
      fun packets last hreceiving => EncodePhase.noConfusion (he.symm.trans hreceiving)
  by_cases hfull : videoQueueCapacity ≤ p.transport.video.queue.length
  · rw [decide_eq_true hfull]
    exact hwaiting _ hphase
  · rw [decide_eq_false hfull]
    have hsent : Steady { p with encoder := p.encoder.encodeVideoFrame answers } := by
      rw [Encoder.encodeVideoFrame, Encoder.send, if_neg (Int.not_lt.mpr hsend)]
      refine ⟨EncodePhase.noConfusion, fun packets last hreceiving => ?_⟩
      cases hreceiving
      refine ⟨hlast, hallocated, ?_⟩
      show p.transport.video.queue.length + _ ≤ _
      omega
    cases p.transport.connected with
    | false => exact hwaiting _ hphase
    | true =>
        cases buffer with
        | shm => exact hsent
        | dma captured =>
            cases captured with
            | true => exact hsent
            | false => exact absurd rfl hbuffer
        | none => exact hwaiting _ hphase

theorem steady_final (e : Encoder) (answers : CodecAnswers) :
    Steady { p with encoder := e.send true answers } := by
  rw [Encoder.send]
  split
  · exact steady_of EncodePhase.noConfusion fun _ _ => EncodePhase.noConfusion
  · refine steady_of EncodePhase.noConfusion fun packets last hreceiving => ?_
    cases hreceiving

theorem steady_ended (p : Pipeline R) (ret : Int) : Steady { p with encoder := p.encoder.finish true ret } :=
  steady_of EncodePhase.noConfusion fun _ _ => EncodePhase.noConfusion

theorem Steady.receive (h : p.Steady) (hnext : p.receive = some q) : q.Steady := by
  obtain ⟨final, packets, last, hphase, hend | hfailed | hpushed⟩ := receive_cases hnext
  · obtain ⟨rfl, rfl⟩ := hend
    cases final with
    | true => exact steady_ended p _
    | false =>
        rw [endResult, if_pos (h.room [] last hphase).1]
        exact steady_of EncodePhase.noConfusion fun _ _ => EncodePhase.noConfusion
  · obtain ⟨first, rest, rfl, hreason, rfl⟩ := hfailed
    cases final with
    | true => exact steady_ended p _
    | false =>
        obtain ⟨-, hallocated, hroom⟩ := h.room _ last hphase
        rw [List.length_cons] at hroom
        rcases hreason with hfalse | hnone
        · exact absurd ((hallocated first List.mem_cons_self).symm.trans hfalse) Bool.noConfusion
        · rw [TransportSession.next, Lane.push, if_pos (by omega)] at hnone
          cases hnone
  · obtain ⟨packet, rest, transport, rfl, hpush, rfl⟩ := hpushed
    refine ⟨EncodePhase.noConfusion, fun packets' last' hreceiving => ?_⟩
    cases hreceiving
    obtain ⟨hlast, hallocated, hroom⟩ := h.room _ last hphase
    refine ⟨hlast, fun packet hmem => hallocated packet (List.mem_cons_of_mem _ hmem), ?_⟩
    rw [List.length_cons] at hroom
    obtain ⟨video, hvideo, rfl⟩ := Option.map_eq_some_iff.mp hpush
    rw [Lane.push, if_pos (by omega)] at hvideo
    cases hvideo
    show (p.transport.video.queue ++ [toFrame packet]).length + rest.length ≤ _
    rw [List.length_append, List.length_singleton]
    omega

theorem Steady.next (h : p.Steady) (hsmooth : p.Smooth step) (hnext : p.next step = some q) : q.Steady := by
  cases step with
  | take buffer answers =>
      rw [Pipeline.next] at hnext
      cases hphase : p.encoder.phase with
      | waiting =>
          rw [hphase] at hnext
          cases hnext
          exact steady_take hphase hsmooth
      | receiving | failed | ended =>
          rw [hphase] at hnext
          cases hnext
  | receive => exact h.receive hnext
  | teardown answers =>
      rw [Pipeline.next] at hnext
      cases hphase : p.encoder.phase with
      | waiting | failed =>
          rw [hphase] at hnext
          cases hnext
          exact steady_final _ answers
      | receiving | ended =>
          rw [hphase] at hnext
          cases hnext
  | transport event =>
      rw [Pipeline.next] at hnext
      split at hnext
      · cases hnext
      · next hvideo =>
        obtain ⟨transport, htransport, rfl⟩ := Option.map_eq_some_iff.mp hnext
        have hle := queue_next (Option.not_isSome_iff_eq_none.mp hvideo) htransport
        refine ⟨h.failed, fun packets last hphase => ?_⟩
        obtain ⟨hlast, hallocated, hroom⟩ := h.room packets last hphase
        exact ⟨hlast, hallocated, Nat.le_trans (Nat.add_le_add_right hle _) hroom⟩

theorem run_steady {trace : List PipelineStep} (hp : (system R Smooth).Run trace p) : p.Steady := by
  refine hp.always Steady ?_ ?_
  · rintro p rfl
    exact steady_of EncodePhase.noConfusion fun _ _ => EncodePhase.noConfusion
  · intro p step q h hstep
    exact h.next hstep.1 hstep.2

/-- The packet of a frame can always be pushed: the encoder has looked for room, and only the
transport has changed the queue since. -/
theorem never_failed {trace : List PipelineStep} (hp : (system R Smooth).Run trace p) :
    p.encoder.phase ≠ .failed ∧
      ∀ packet packets last, p.encoder.phase = .receiving false (packet :: packets) last →
        ∃ q, p.next .receive = some q ∧ q.encoder.pushed = p.encoder.pushed ++ [packet.1] := by
  have h := run_steady hp
  refine ⟨h.failed, fun packet packets last hphase => ?_⟩
  obtain ⟨-, hallocated, hroom⟩ := h.room _ last hphase
  obtain ⟨first, allocated⟩ := packet
  obtain rfl : allocated = true := hallocated _ List.mem_cons_self
  rw [List.length_cons] at hroom
  cases hpush : p.transport.next (.pushVideo (toFrame first)) with
  | none =>
      rw [TransportSession.next, Lane.push, if_pos (by omega)] at hpush
      cases hpush
  | some transport =>
      refine ⟨p.pushedPacket transport false first packets last, ?_, rfl⟩
      rw [Pipeline.next, Pipeline.receive, hphase]
      dsimp only
      rw [hpush]
      rfl

/-! ### An example -/

theorem fits_onePacket (byte : UInt8) : [byte].length < 2 ^ 31 := by
  rw [List.length_singleton]
  decide

def firstPacket : AVPacket := ⟨avPktFlagKey, [0x67], fits_onePacket _⟩

def nextPacket : AVPacket := ⟨0, [0x41], fits_onePacket _⟩

/-- A frame that the codec makes one packet of. -/
def takes (packet : AVPacket) : PipelineStep := .take .shm ⟨0, [(packet, true)], averrorEagain⟩

/-- The first frame comes before the client; the packet of the second one is in the stream and has
been received, and the packet of the third one waits. -/
def firstSteps : List PipelineStep :=
  [.take .shm ⟨0, [], averrorEagain⟩, .transport .request,
    .transport (.media (.sessionReady true true true)), takes firstPacket, .receive, .receive,
    .transport (.iteration TransportSession.taken TransportSession.taken),
    .transport (.media (.chunk 0 7)), .transport (.media .timer), takes nextPacket, .receive, .receive]

/-- The thread of the transport is late, and there is room for one more packet. -/
def lateSteps : List PipelineStep :=
  [.transport .request, .transport (.media (.sessionReady true true true)),
    takes firstPacket, .receive, .receive, takes nextPacket, .receive, .receive,
    takes nextPacket, .receive, .receive, takes nextPacket]

/-- What is in order by a look at the step and the streams only. -/
def careful (p : Pipeline R) : PipelineStep → Bool
  | .take .shm answers =>
      decide (0 ≤ answers.send) && decide (answers.packets.length ≤ 1) && answers.packets.all Prod.snd &&
        decide (answers.last = averrorEagain)
  | .take _ _ => false
  | .receive => true
  | .teardown _ => false
  | .transport event => p.transport.careful event

theorem plausible_of_careful (h : p.careful step = true) : p.Plausible step := by
  cases step with
  | teardown answers => cases h
  | transport event =>
      cases event with
      | media step => exact MediaSession.orderly_of_careful h
      | _ => trivial
  | _ => trivial

theorem smooth_of_careful (h : p.careful step = true) : p.Smooth step := by
  cases step with
  | take buffer answers =>
      cases buffer with
      | shm =>
          simp only [careful, Bool.and_eq_true, decide_eq_true_eq, List.all_eq_true] at h
          obtain ⟨⟨⟨hsend, hone⟩, hallocated⟩, hlast⟩ := h
          exact ⟨FrameBuffer.noConfusion, hsend, hone, hallocated, .inl hlast⟩
      | dma captured => cases h
      | none => cases h
  | _ => trivial

theorem firstSteps_run : ∃ p : Pipeline (QueueRing.ringBuffer Bytes),
    (system _ Plausible).Run firstSteps p ∧ p.encoder.pushed = [firstPacket, nextPacket] ∧
      p.transport.video.queue = [toFrame nextPacket] ∧
      ((p.next (.transport (.media (.work MediaSession.willing)))).map fun q =>
        (q.encoder.pushed, q.transport.session.streams.map MediaStream.video,
          q.transport.session.worker.extracted)) =
        some ([firstPacket, nextPacket], [true, false], [VideoReading.packet (toFrame firstPacket)]) := by
  have hend : ((Labelled.follow next (fun p step => p.careful step = true) firstSteps
      (start (QueueRing.ringBuffer Bytes))).map fun p =>
        (p.encoder.pushed, p.transport.video.queue,
          (p.next (.transport (.media (.work MediaSession.willing)))).map fun q =>
            (q.encoder.pushed, q.transport.session.streams.map MediaStream.video,
              q.transport.session.worker.extracted))) =
        some ([firstPacket, nextPacket], [toFrame nextPacket],
          some ([firstPacket, nextPacket], [true, false],
            [VideoReading.packet (toFrame firstPacket)])) := by rfl
  obtain ⟨p, hp, hresult⟩ := Option.map_eq_some_iff.mp hend
  simp only [Prod.mk.injEq] at hresult
  exact ⟨p, (Labelled.Run.start rfl).follow (fun _ _ _ hcareful hnext =>
    ⟨plausible_of_careful hcareful, hnext⟩) hp, hresult⟩

theorem packets_written_once_firstSteps : ∃ p : Pipeline (QueueRing.ringBuffer Bytes),
    (system _ Plausible).Run firstSteps p ∧ p.transport.video.dropped = [] ∧
      p.transport.video.queue = [toFrame nextPacket] ∧
      p.transport.video.sent ++ p.transport.video.queue = [toFrame firstPacket, toFrame nextPacket] := by
  obtain ⟨p, hp, hpushed, hqueue, -⟩ := firstSteps_run
  obtain ⟨hdropped, hall, -⟩ := packets_written_once hp
  rw [hpushed] at hall
  exact ⟨p, hp, hdropped, hqueue, hall⟩

/-- The worker has handled what was received. -/
theorem packets_to_worker_firstSteps : ∃ q : Pipeline (QueueRing.ringBuffer Bytes),
    (system _ Plausible).Run (firstSteps ++ [.transport (.media (.work MediaSession.willing))]) q ∧
      q.transport.session.worker.extracted = [VideoReading.packet (toFrame firstPacket)] ∧
      q.transport.session.worker.extracted <+:
        [VideoReading.packet (toFrame firstPacket), VideoReading.packet (toFrame nextPacket)] := by
  obtain ⟨p, hp, -, -, hwork⟩ := firstSteps_run
  obtain ⟨q, hq, hresult⟩ := Option.map_eq_some_iff.mp hwork
  simp only [Prod.mk.injEq] at hresult
  obtain ⟨hpushed, hvideo, hextracted⟩ := hresult
  have hrun : (system _ Plausible).Run
      (firstSteps ++ [.transport (.media (.work MediaSession.willing))]) q :=
    .next hp ⟨fun _ => rfl, hq⟩
  have hsofar := packets_to_worker (QueueRing.fifo Bytes) hrun (TransportSession.oneVideo_of_kinds hvideo)
  rw [hpushed] at hsofar
  exact ⟨q, hrun, hextracted, hsofar⟩

theorem never_failed_lateSteps : ∃ p : Pipeline (QueueRing.ringBuffer Bytes),
    (system _ Smooth).Run lateSteps p ∧ p.transport.video.queue.length = 3 ∧
      ∃ q, p.next .receive = some q ∧
        q.encoder.pushed = [firstPacket, nextPacket, nextPacket, nextPacket] := by
  have hend : ((Labelled.follow next (fun p step => p.careful step = true) lateSteps
      (start (QueueRing.ringBuffer Bytes))).map fun p =>
        (p.transport.video.queue.length, p.encoder.pushed, p.encoder.phase)) =
        some (3, [firstPacket, nextPacket, nextPacket],
          .receiving false [(nextPacket, true)] averrorEagain) := by rfl
  obtain ⟨p, hp, hresult⟩ := Option.map_eq_some_iff.mp hend
  simp only [Prod.mk.injEq] at hresult
  obtain ⟨hqueue, hpushed, hphase⟩ := hresult
  have hrun : (system _ Smooth).Run lateSteps p := (Labelled.Run.start rfl).follow
    (fun _ _ _ hcareful hnext => ⟨smooth_of_careful hcareful, hnext⟩) hp
  obtain ⟨-, hpush⟩ := never_failed hrun
  obtain ⟨q, hq, hmore⟩ := hpush _ _ _ hphase
  rw [hpushed] at hmore
  exact ⟨p, hrun, hqueue, q, hq, hmore⟩

end Pipeline

end Stratus.Encode
