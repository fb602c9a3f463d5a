import Mathlib.Data.List.GetD
import Stratus.Frontend.MediaWorkers
import Stratus.Lib.Word
import Stratus.Transport.MediaPackets

/-! A media stream from the server's packets to the decoder's chunks. -/
namespace Stratus.Frontend

open Stratus.Lib Stratus.Transport

variable {R : RingBuffer Bytes}

/-! ### The header -/

theorem length_htonl (n : Nat) : (htonl n).length = 4 := rfl

theorem readU32BE_append (head tail : Bytes) {n : Nat} (hn : n < 2 ^ 32) :
    readU32BE (head ++ htonl n ++ tail) head.length = n := by
  have hbyte (i : Nat) (hi : i < 4) :
      (head ++ htonl n ++ tail).getD (head.length + i) 0 = (htonl n).getD i 0 := by
    rw [List.append_assoc, List.getD_append_right _ _ _ _ (Nat.le_add_right _ _),
      Nat.add_sub_cancel_left, List.getD_append _ _ _ _ hi]
  unfold readU32BE byteAt
  rw [← Nat.add_zero head.length, hbyte 0 (by decide), Nat.add_zero, hbyte 1 (by decide),
    hbyte 2 (by decide), hbyte 3 (by decide), u32_of_bytes]
  simp only [htonl, List.getD_cons_zero, List.getD_cons_succ, UInt8.toNat_ofNat']
  omega

theorem pushChunks_spec {fifo : R.Fifo} {frameBuffer : ChunkRingBuffer R}
    (h : frameBuffer.WellFormed fifo) (chunks : List Bytes) :
    (pushChunks frameBuffer chunks).WellFormed fifo ∧
      (pushChunks frameBuffer chunks).bytes fifo = frameBuffer.bytes fifo ++ chunks.flatten ∧
      (pushChunks frameBuffer chunks).headerBytes = frameBuffer.headerBytes := by
  induction chunks generalizing frameBuffer with
  | nil => exact ⟨h, (List.append_nil _).symm, rfl⟩
  | cons chunk chunks ih =>
      obtain ⟨hpush, hbytes⟩ := h.push chunk
      obtain ⟨hwf, hbytes', hheader⟩ := ih hpush
      refine ⟨hwf, ?_, ?_⟩
      · rw [List.flatten_cons, ← List.append_assoc, ← hbytes]
        exact hbytes'
      · exact hheader.trans (ChunkRingBuffer.headerBytes_push frameBuffer chunk)

/-! ### Video -/

/-- The chunk that the decoder has to get for a frame. -/
def expectedVideo (frame : VideoFrame) : List (ChunkType × Bytes) :=
  if frame.data = [] then []
  else [(if frame.isDescription then .key else .delta, frame.data)]

def videoHeader (frame : VideoFrame) : VideoMessageHeader where
  streamType := streamVideo
  messageType := if frame.isDescription then 0 else 1
  chunkType := if frame.isDescription then .key else .delta
  payloadLen := frame.data.length

theorem length_submitVideo (frame : VideoFrame) :
    (submitVideoDataToStream frame).length = 6 + frame.data.length := by
  simp only [submitVideoDataToStream, List.length_append, length_htonl, List.length_cons,
    List.length_nil]

namespace VideoStreamWorker

variable {fifo : R.Fifo} {w : VideoStreamWorker R} {frame : VideoFrame}

/-- `init` has been received. -/
def Ready (w : VideoStreamWorker R) : Prop := w.isClosed = false ∧ w.canvas = true ∧ w.ctx = true

structure Good (fifo : R.Fifo) (w : VideoStreamWorker R) : Prop where
  ready : w.Ready
  wellFormed : w.frameBuffer.WellFormed fifo
  header : w.frameBuffer.headerBytes = videoMessageHeaderBytes
  dropping : w.hasLoggedDrop = false → w.droppingUntilKeyframe = false

def buffered (fifo : R.Fifo) (w : VideoStreamWorker R) : Bytes := w.frameBuffer.bytes fifo

def chunks (w : VideoStreamWorker R) : List (ChunkType × Bytes) :=
  w.decoded.map fun chunk => (chunk.type, chunk.data)

theorem Good.byteLength (h : w.Good fifo) :
    w.frameBuffer.byteLength = (w.buffered fifo).length := h.wellFormed.buffered

/-- The header is read off the first six bytes of a packet. -/
theorem Good.peekVideoHeader (h : w.Good fifo) (hle : 6 ≤ (w.buffered fifo).length)
    (htake : (w.buffered fifo).take 6 = (submitVideoDataToStream frame).take 6) :
    w.peekVideoHeader = some (videoHeader frame) := by
  have hfits := frame.fits
  have hpeek : w.frameBuffer.peek = some ((submitVideoDataToStream frame).take 6) := by
    rw [ChunkRingBuffer.peek_eq h.wellFormed, h.header, ← htake]
    exact if_neg (Nat.not_lt.mpr hle)
  have hread := readU32BE_append
    [TransportStreamType.video.toByte,
      if frame.isDescription then VideoMessageType.description.toByte
      else VideoMessageType.payload.toByte] [] (show frame.data.length < 2 ^ 32 by omega)
  rw [VideoStreamWorker.peekVideoHeader, hpeek, Option.map_some]
  have hbyte : ((submitVideoDataToStream frame).take 6).getD 1 0 =
      if frame.isDescription then 0 else 1 := rfl
  have htype : (if ((submitVideoDataToStream frame).take 6).getD 1 0 = codecDescription then
      ChunkType.key else .delta) = if frame.isDescription then .key else .delta := by
    rw [hbyte]
    cases frame.isDescription <;> rfl
  rw [htype]
  exact congrArg (fun n => some { videoHeader frame with payloadLen := n }) hread

theorem Good.short (h : w.Good fifo) (decodeQueueSize : Nat → Nat)
    (hpart : w.buffered fifo <+: submitVideoDataToStream frame)
    (hlt : (w.buffered fifo).length < (submitVideoDataToStream frame).length) :
    w.processFrame decodeQueueSize = none := by
  unfold processFrame
  rw [h.byteLength]
  split
  · rfl
  · next hle =>
    have hle : 6 ≤ (w.buffered fifo).length := Nat.not_lt.mp hle
    obtain ⟨rest, hrest⟩ := hpart
    rw [h.peekVideoHeader hle (by rw [← hrest, List.take_append_of_le_length hle])]
    rw [length_submitVideo] at hlt
    exact if_pos hlt

/-- What `applyCongestionControlBeforeFrame` can do. -/
theorem congestion_spec (w : VideoStreamWorker R) (decodeQueueSize : Nat → Nat) :
    let w' := w.applyCongestionControlBeforeFrame decodeQueueSize
    w'.frameBuffer = w.frameBuffer ∧ w'.decoded = w.decoded ∧ (w.Ready → w'.Ready) ∧
      ((w.hasLoggedDrop = false → w.droppingUntilKeyframe = false) → w'.hasLoggedDrop = false →
        w.hasLoggedDrop = false ∧ w'.droppingUntilKeyframe = false) := by
  unfold applyCongestionControlBeforeFrame
  dsimp only
  split
  · exact ⟨rfl, rfl, id, fun hdropping hlogged => ⟨hlogged, hdropping hlogged⟩⟩
  · refine ⟨rfl, rfl, id, fun _ hlogged => ?_⟩
    simp only [Bool.or_eq_false_iff] at hlogged ⊢
    exact ⟨hlogged.1.1, hlogged.1.2, hlogged.2⟩

/-- The payload is taken off the buffer, and decoded unless frames are being dropped. -/
theorem Good.payload (h : w.Good fifo) {rest : Bytes}
    (hbytes : w.buffered fifo = frame.data ++ rest) :
    ∃ w', w.processPayload (videoHeader frame) = some w' ∧ w'.Good fifo ∧ w'.buffered fifo = rest ∧
      w'.hasLoggedDrop = w.hasLoggedDrop ∧
      (w.hasLoggedDrop = false → w'.chunks = w.chunks ++ expectedVideo frame) := by
  unfold processPayload expectedVideo
  by_cases hempty : frame.data = []
  · have hlen : (videoHeader frame).payloadLen < 1 := by
      change frame.data.length < 1
      rw [hempty]
      exact Nat.zero_lt_one
    rw [if_pos hlen, if_pos hempty]
    refine ⟨w, rfl, h, ?_, rfl, fun _ => (List.append_nil _).symm⟩
    rw [hbytes, hempty, List.nil_append]
  · have hpos : 0 < frame.data.length := List.length_pos_iff.mpr hempty
    rw [if_neg (show ¬ (videoHeader frame).payloadLen < 1 from Nat.not_lt.mpr hpos), if_neg hempty]
    split
    · next hshould =>
      have hdropping : w.droppingUntilKeyframe = true := (Bool.and_eq_true_iff.mp hshould).1
      obtain ⟨frameBuffer, hdiscard, hwf, hbytes', hheader⟩ :=
        ChunkRingBuffer.discard_front h.wellFormed hbytes
      refine ⟨{ w with frameBuffer := frameBuffer }, ?_, ⟨h.ready, hwf, hheader.trans h.header, h.dropping⟩,
        hbytes', rfl, fun hlogged => ?_⟩
      · rw [show (videoHeader frame).payloadLen = frame.data.length from rfl, hdiscard]
        rfl
      · rw [h.dropping hlogged] at hdropping
        cases hdropping
    · obtain ⟨frameBuffer, htaken, hwf, hbytes', hheader⟩ :=
        ChunkRingBuffer.take_front h.wellFormed hbytes hempty
      rw [show (videoHeader frame).payloadLen = frame.data.length from rfl, htaken]
      refine ⟨_, rfl, ?_, ?_, ?_, fun hlogged => ?_⟩
      · unfold decodeFrame recoverFromCongestionIfNeeded
        dsimp only
        split
        · exact ⟨h.ready, hwf, hheader.trans h.header, fun _ => rfl⟩
        · exact ⟨h.ready, hwf, hheader.trans h.header, h.dropping⟩
      · unfold decodeFrame recoverFromCongestionIfNeeded
        dsimp only
        split <;> exact hbytes'
      · unfold decodeFrame recoverFromCongestionIfNeeded
        dsimp only
        split <;> rfl
      · unfold decodeFrame recoverFromCongestionIfNeeded
        simp only [h.dropping hlogged, Bool.false_eq_true, if_false, chunks, List.map_append]
        rfl

theorem Good.whole (h : w.Good fifo) (decodeQueueSize : Nat → Nat) {rest : Bytes}
    (hbytes : w.buffered fifo = submitVideoDataToStream frame ++ rest) :
    ∃ w', w.processFrame decodeQueueSize = some w' ∧ w'.Good fifo ∧ w'.buffered fifo = rest ∧
      (w'.hasLoggedDrop = false → w.hasLoggedDrop = false ∧
        w'.chunks = w.chunks ++ expectedVideo frame) := by
  have hlength := length_submitVideo frame
  have hle : 6 + frame.data.length ≤ (w.buffered fifo).length := by
    rw [hbytes, List.length_append]
    omega
  have hheader : w.peekVideoHeader = some (videoHeader frame) := by
    refine h.peekVideoHeader (by omega) ?_
    rw [hbytes, List.take_append_of_le_length (by omega)]
  obtain ⟨hbuffer, hdecoded, hready, hdropping⟩ := w.congestion_spec decodeQueueSize
  obtain ⟨frameBuffer, hdiscard, hwf, hdrop, hheader'⟩ :=
    ChunkRingBuffer.discard_eq h.wellFormed (show 6 ≤ (w.buffered fifo).length by omega)
  have hgood : Good fifo
      { w.applyCongestionControlBeforeFrame decodeQueueSize with frameBuffer := frameBuffer } :=
    ⟨hready h.ready, hwf, hheader'.trans h.header, fun hlogged => (hdropping h.dropping hlogged).2⟩
  have hpayload : frameBuffer.bytes fifo = frame.data ++ rest := by
    rw [hdrop]
    exact congrArg (List.drop 6) hbytes
  obtain ⟨w', hw', hgood', hrest, hlogged, hchunks⟩ := hgood.payload hpayload
  refine ⟨w', ?_, hgood', hrest, fun hfalse => ?_⟩
  · have hsix : ¬ (w.buffered fifo).length < videoMessageHeaderBytes :=
      Nat.not_lt.mpr (show 6 ≤ (w.buffered fifo).length by omega)
    have hall : ¬ (w.buffered fifo).length <
        videoMessageHeaderBytes + (videoHeader frame).payloadLen := Nat.not_lt.mpr hle
    have hdiscard' : (w.applyCongestionControlBeforeFrame decodeQueueSize).frameBuffer.discard
        videoMessageHeaderBytes = some frameBuffer := by
      rw [hbuffer]
      exact hdiscard
    unfold processFrame
    simp only [h.byteLength, hsix, if_false, hheader, hall, hdiscard']
    exact hw'
  · rw [hlogged] at hfalse
    obtain ⟨hbefore, -⟩ := hdropping h.dropping hfalse
    refine ⟨hbefore, (hchunks hfalse).trans ?_⟩
    exact congrArg (fun l => List.map _ l ++ expectedVideo frame) hdecoded

/-- The worker as a reader of frames. -/
def deframer (fifo : R.Fifo) (decodeQueueSize : Nat → Nat) :
    Deframer (VideoStreamWorker R) VideoFrame (ChunkType × Bytes) where
  step := processFrame decodeQueueSize
  bytes := buffered fifo
  emitted := chunks
  encode := submitVideoDataToStream
  out := expectedVideo
  good := Good fifo
  ok w := w.hasLoggedDrop = false
  encode_pos frame := by
    rw [length_submitVideo]
    omega
  empty w h hnil := by
    unfold processFrame
    rw [h.byteLength, hnil]
    rfl
  short w frame h hpart hlt := h.short decodeQueueSize hpart hlt
  whole w frame rest h hbytes := h.whole decodeQueueSize hbytes

theorem ensureDecoder_eq (h : w.Ready) : w.ensureDecoder = some { w with decoder := true } := by
  obtain ⟨-, hcanvas, hctx⟩ := h
  unfold ensureDecoder
  split
  · next hdecoder =>
    cases w
    cases hdecoder
    rfl
  · simp [hcanvas, hctx]

theorem handleChunkBatch_reads {decodeQueueSize : Nat → Nat} {frames : List VideoFrame}
    {later : Bytes} {batch : List Bytes}
    (h : (deframer fifo decodeQueueSize).Reads frames (batch.flatten ++ later) w) :
    (deframer fifo decodeQueueSize).Reads frames later (w.handleChunkBatch decodeQueueSize batch) := by
  obtain ⟨hwf, hbytes, hheader⟩ := pushChunks_spec h.good.wellFormed batch
  have hgood : Good fifo { w with frameBuffer := pushChunks w.frameBuffer batch, decoder := true } :=
    ⟨h.good.ready, hwf, hheader.trans h.good.header, h.good.dropping⟩
  have hready : Ready { w with frameBuffer := pushChunks w.frameBuffer batch } := h.good.ready
  unfold handleChunkBatch processFrames
  rw [if_neg (by rw [h.good.ready.1]; exact Bool.false_ne_true), ensureDecoder_eq hready]
  exact (h.feed hgood hbytes rfl (fun hok => hok) (Nat.le_of_eq hgood.byteLength.symm)).1

end VideoStreamWorker

/-! ### Audio -/

def expectedAudio (frame : AudioFrame) : List (ChunkType × Bytes) :=
  if frame.data = [] then [] else [(.key, frame.data)]

theorem length_submitAudio (frame : AudioFrame) :
    (submitAudioDataToStream frame).length = 5 + frame.data.length := by
  simp only [submitAudioDataToStream, List.length_append, length_htonl, List.length_cons,
    List.length_nil]

namespace AudioStreamWorker

variable {fifo : R.Fifo} {w : AudioStreamWorker R} {frame : AudioFrame}

structure Good (fifo : R.Fifo) (w : AudioStreamWorker R) : Prop where
  ready : w.isClosed = false
  wellFormed : w.frameBuffer.WellFormed fifo
  header : w.frameBuffer.headerBytes = audioMessageHeaderBytes
  streamType : ∀ streamType ∈ w.streamType, streamType = streamAudio

def buffered (fifo : R.Fifo) (w : AudioStreamWorker R) : Bytes := w.frameBuffer.bytes fifo

def chunks (w : AudioStreamWorker R) : List (ChunkType × Bytes) :=
  w.decoded.map fun chunk => (chunk.type, chunk.data)

theorem Good.byteLength (h : w.Good fifo) :
    w.frameBuffer.byteLength = (w.buffered fifo).length := h.wellFormed.buffered

theorem Good.peekAudioHeader (h : w.Good fifo) (hle : 5 ≤ (w.buffered fifo).length)
    (htake : (w.buffered fifo).take 5 = (submitAudioDataToStream frame).take 5) :
    w.peekAudioHeader = some (streamAudio, frame.data.length) := by
  have hfits := frame.fits
  have hpeek : w.frameBuffer.peek = some ((submitAudioDataToStream frame).take 5) := by
    rw [ChunkRingBuffer.peek_eq h.wellFormed, h.header, ← htake]
    exact if_neg (Nat.not_lt.mpr hle)
  have hread := readU32BE_append [TransportStreamType.audio.toByte] []
    (show frame.data.length < 2 ^ 32 by omega)
  rw [AudioStreamWorker.peekAudioHeader, hpeek, Option.map_some]
  exact congrArg (fun n => some (streamAudio, n)) hread

theorem Good.short (h : w.Good fifo)
    (hpart : w.buffered fifo <+: submitAudioDataToStream frame)
    (hlt : (w.buffered fifo).length < (submitAudioDataToStream frame).length) :
    w.processFrame = none := by
  unfold processFrame
  rw [h.byteLength]
  split
  · rfl
  · next hle =>
    have hle : 5 ≤ (w.buffered fifo).length := Nat.not_lt.mp hle
    obtain ⟨rest, hrest⟩ := hpart
    rw [h.peekAudioHeader hle (by rw [← hrest, List.take_append_of_le_length hle])]
    rw [length_submitAudio] at hlt
    exact if_pos hlt

theorem Good.payload (h : w.Good fifo) {rest : Bytes}
    (hbytes : w.buffered fifo = frame.data ++ rest) :
    ∃ w', w.processPayload streamAudio frame.data.length = some w' ∧ w'.Good fifo ∧
      w'.buffered fifo = rest ∧ w'.chunks = w.chunks ++ expectedAudio frame := by
  unfold processPayload expectedAudio
  by_cases hempty : frame.data = []
  · have hlen : frame.data.length < 1 := by
      rw [hempty]
      exact Nat.zero_lt_one
    rw [if_pos hlen, if_pos hempty]
    refine ⟨w, rfl, h, ?_, (List.append_nil _).symm⟩
    rw [hbytes, hempty, List.nil_append]
  · have hpos : 0 < frame.data.length := List.length_pos_iff.mpr hempty
    have htype : w.streamType.getD streamAudio = streamAudio := by
      cases hw : w.streamType with
      | none => rfl
      | some streamType => exact h.streamType streamType hw
    obtain ⟨frameBuffer, htaken, hwf, hbytes', hheader⟩ :=
      ChunkRingBuffer.take_front h.wellFormed hbytes hempty
    rw [if_neg (Nat.not_lt.mpr hpos), if_neg hempty, htype]
    dsimp only
    rw [if_neg (fun hne => hne rfl), htaken]
    refine ⟨_, rfl, ⟨h.ready, hwf, hheader.trans h.header, ?_⟩, hbytes', ?_⟩
    · rintro _ ⟨⟩
      rfl
    · simp only [chunks, List.map_append]
      rfl

theorem Good.whole (h : w.Good fifo) {rest : Bytes}
    (hbytes : w.buffered fifo = submitAudioDataToStream frame ++ rest) :
    ∃ w', w.processFrame = some w' ∧ w'.Good fifo ∧ w'.buffered fifo = rest ∧
      w'.chunks = w.chunks ++ expectedAudio frame := by
  have hlength := length_submitAudio frame
  have hle : 5 + frame.data.length ≤ (w.buffered fifo).length := by
    rw [hbytes, List.length_append]
    omega
  have hheader : w.peekAudioHeader = some (streamAudio, frame.data.length) := by
    refine h.peekAudioHeader (by omega) ?_
    rw [hbytes, List.take_append_of_le_length (by omega)]
  obtain ⟨frameBuffer, hdiscard, hwf, hdrop, hheader'⟩ :=
    ChunkRingBuffer.discard_eq h.wellFormed (show 5 ≤ (w.buffered fifo).length by omega)
  have hgood : Good fifo { w with frameBuffer := frameBuffer } :=
    ⟨h.ready, hwf, hheader'.trans h.header, h.streamType⟩
  have hpayload : frameBuffer.bytes fifo = frame.data ++ rest := by
    rw [hdrop]
    exact congrArg (List.drop 5) hbytes
  obtain ⟨w', hw', hgood', hrest, hchunks⟩ := hgood.payload hpayload
  refine ⟨w', ?_, hgood', hrest, hchunks⟩
  have hfive : ¬ (w.buffered fifo).length < audioMessageHeaderBytes :=
    Nat.not_lt.mpr (show 5 ≤ (w.buffered fifo).length by omega)
  have hall : ¬ (w.buffered fifo).length < audioMessageHeaderBytes + frame.data.length :=
    Nat.not_lt.mpr hle
  have hdiscard' : w.frameBuffer.discard audioMessageHeaderBytes = some frameBuffer := hdiscard
  unfold processFrame
  simp only [h.byteLength, hfive, if_false, hheader, hall, hdiscard']
  exact hw'

def deframer (fifo : R.Fifo) : Deframer (AudioStreamWorker R) AudioFrame (ChunkType × Bytes) where
  step := processFrame
  bytes := buffered fifo
  emitted := chunks
  encode := submitAudioDataToStream
  out := expectedAudio
  good := Good fifo
  ok _ := True
  encode_pos frame := by
    rw [length_submitAudio]
    omega
  empty w h hnil := by
    unfold processFrame
    rw [h.byteLength, hnil]
    rfl
  short w frame h hpart hlt := h.short hpart hlt
  whole w frame rest h hbytes := by
    obtain ⟨w', hw', hgood, hrest, hchunks⟩ := h.whole hbytes
    exact ⟨w', hw', hgood, hrest, fun _ => ⟨trivial, hchunks⟩⟩

theorem handleChunkBatch_reads {frames : List AudioFrame} {later : Bytes} {batch : List Bytes}
    (h : (deframer fifo).Reads frames (batch.flatten ++ later) w) :
    (deframer fifo).Reads frames later (w.handleChunkBatch batch) := by
  obtain ⟨hwf, hbytes, hheader⟩ := pushChunks_spec h.good.wellFormed batch
  have hgood : Good fifo { w with frameBuffer := pushChunks w.frameBuffer batch, decoder := true } :=
    ⟨h.good.ready, hwf, hheader.trans h.good.header, h.good.streamType⟩
  unfold handleChunkBatch processFrames
  rw [if_neg (by rw [h.good.ready]; exact Bool.false_ne_true)]
  exact (h.feed hgood hbytes rfl (fun hok => hok) (Nat.le_of_eq hgood.byteLength.symm)).1

end AudioStreamWorker

/-! ### Whole streams -/

/-- The chunks are those of the first frames, and the buffer holds a proper prefix of
the next packet. -/
def Framed {φ : Type} (encode : φ → Bytes) (expected : φ → List (ChunkType × Bytes))
    (frames : List φ) (chunks : List (ChunkType × Bytes)) (buffered : Bytes) : Prop :=
  ∃ k, chunks = (frames.take k).flatMap expected ∧
    ((frames.drop k = [] ∧ buffered = []) ∨ ∃ frame ∈ (frames.drop k).head?,
      buffered <+: encode frame ∧ buffered.length < (encode frame).length)

/-- `ringbufferjs` with the queue for the slots from `_first` on that are in use. -/
structure QueueRing (α : Type) where
  capacity : Nat
  first : Nat
  queue : List α
  first_lt : first < capacity
  length_le : queue.length ≤ capacity

namespace QueueRing

variable {α : Type}

/-- `new RingBuffer(capacity)`, where no capacity is 50. -/
def create (capacity : Nat) : QueueRing α where
  capacity := if capacity = 0 then 50 else capacity
  first := 0
  queue := []
  first_lt := by split <;> omega
  length_le := Nat.zero_le _

def isFull (r : QueueRing α) : Bool := r.queue.length == r.capacity

/-- A full queue loses its oldest element. -/
def enq (r : QueueRing α) (x : α) : QueueRing α where
  capacity := r.capacity
  first := if r.isFull then (r.first + 1) % r.capacity else r.first
  queue := if r.isFull then (r.queue ++ [x]).tail else r.queue ++ [x]
  first_lt := by
    have hlt := r.first_lt
    split
    · exact Nat.mod_lt _ (by omega)
    · exact hlt
  length_le := by
    have hle := r.length_le
    split
    · simpa using hle
    · rename_i hfull
      have hne : r.queue.length ≠ r.capacity := by simpa [isFull] using hfull
      rw [List.length_append, List.length_singleton]
      omega

def deq (r : QueueRing α) : QueueRing α where
  capacity := r.capacity
  first := (r.first + 1) % r.capacity
  queue := r.queue.tail
  first_lt := Nat.mod_lt _ (by have := r.first_lt; omega)
  length_le := by
    have := r.length_le
    rw [List.length_tail]
    omega

def element (r : QueueRing α) (index : Nat) : Option α :=
  r.queue[(index + r.capacity - r.first) % r.capacity]?

def ringBuffer (α : Type) : RingBuffer α where
  Ring := QueueRing α
  create := create
  capacity := capacity
  isFull := isFull
  enq := enq
  deq := deq
  peek := fun r => r.queue.head?
  first := first
  size := fun r => r.queue.length
  element := element

def fifo (α : Type) : (ringBuffer α).Fifo where
  items := queue
  items_create := fun _ => rfl
  items_enq := by
    intro r x hfull
    change (if r.isFull then (r.queue ++ [x]).tail else r.queue ++ [x]) = _
    exact if_neg (Bool.eq_false_iff.mp hfull)
  items_deq := fun _ _ => rfl
  peek := fun _ => rfl
  isFull := by
    intro r
    have hle := r.length_le
    change (r.queue.length == r.capacity) = true ↔ r.capacity ≤ r.queue.length
    rw [beq_iff_eq]
    omega
  capacity_create := fun _ hpos => if_neg (by omega)
  capacity_enq := fun _ _ => rfl
  capacity_deq := fun _ => rfl
  size := fun _ => rfl
  first := fun r _ => r.first_lt
  element := by
    intro r i hi
    have hlt := r.first_lt
    have hle := r.length_le
    replace hi : i < r.queue.length := hi
    change r.queue[((r.first + i) % r.capacity + r.capacity - r.first) % r.capacity]? = r.queue[i]?
    congr 1
    by_cases hwrap : r.first + i < r.capacity
    · rw [Nat.mod_eq_of_lt hwrap, show r.first + i + r.capacity - r.first = i + r.capacity by omega,
        Nat.add_mod_right, Nat.mod_eq_of_lt (by omega)]
    · have hmod : (r.first + i) % r.capacity = r.first + i - r.capacity := by
        rw [Nat.mod_eq_sub_mod (by omega), Nat.mod_eq_of_lt (by omega)]
      rw [hmod, show r.first + i - r.capacity + r.capacity - r.first = i by omega,
        Nat.mod_eq_of_lt (by omega)]

end QueueRing

end Stratus.Frontend
