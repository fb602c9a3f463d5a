import Stratus.Frontend.DecoderCalls

/-! What the video worker takes off its buffer, whatever becomes of it afterwards. -/
namespace Stratus.Frontend

open Stratus.Lib Stratus.Transport

variable {R : RingBuffer Bytes}

/-- The packet at the front of the buffer. -/
def VideoStreamWorker.frontPacket (w : VideoStreamWorker R) : Option (VideoMessageHeader × Bytes) :=
  w.peekVideoHeader.bind fun header =>
    (w.frameBuffer.peekOf (videoMessageHeaderBytes + header.payloadLen)).map fun bytes =>
      (header, bytes.drop videoMessageHeaderBytes)

/-- The worker with the packets that it has taken off its buffer. -/
structure VideoReading (R : RingBuffer Bytes) where
  decoding : VideoDecoding R
  extracted : List (VideoMessageHeader × Bytes)

namespace VideoReading

def start (R : RingBuffer Bytes) : VideoReading R where
  decoding := .start R
  extracted := []

/-- One round of the loop; an exception ends it. -/
def processFrame (browser : VideoBrowser) (r : VideoReading R) : Option (VideoReading R) :=
  if r.decoding.thrown then none
  else
    (r.decoding.processFrame browser).map fun v =>
      { decoding := v
        extracted := r.extracted ++ r.decoding.worker.frontPacket.toList }

def handleChunkBatch (browser : VideoBrowser) (r : VideoReading R) (chunks : List Bytes) :
    VideoReading R :=
  let received :=
    { r.decoding with
      worker := { r.decoding.worker with
        frameBuffer := pushChunks r.decoding.worker.frameBuffer chunks }
      thrown := false }
  match received.ensureDecoder with
  | none => { r with decoding := received }
  | some v => drain (processFrame browser) v.worker.frameBuffer.byteLength { r with decoding := v }

/-- The packet of a frame. -/
def packet (frame : VideoFrame) : VideoMessageHeader × Bytes := (videoHeader frame, frame.data)

/-- The decoder accepts whatever it gets. -/
def Accepts (browser : VideoBrowser) : Prop := ∀ n, browser.throws n = false

/-- While the loop runs. -/
structure Rounds (fifo : R.Fifo) (frames : List VideoFrame) (later : Bytes) (r : VideoReading R) :
    Prop where
  fits : r.decoding.Fits fifo frames later
  thrown : r.decoding.thrown = false
  decoder : r.decoding.worker.decoder = true
  state : r.decoding.state = .configured
  extracted : r.extracted = (frames.take r.decoding.handled).map packet

/-- Between the batches. -/
structure Reads (fifo : R.Fifo) (frames : List VideoFrame) (later : Bytes) (r : VideoReading R) :
    Prop where
  fits : r.decoding.Fits fifo frames later
  waits : VideoRun.Waits fifo frames r.decoding
  state : r.decoding.worker.decoder = true → r.decoding.state = .configured
  extracted : r.extracted = (frames.take r.decoding.handled).map packet

variable {fifo : R.Fifo} {browser : VideoBrowser} {frames : List VideoFrame} {later : Bytes}
  {r : VideoReading R} {frame : VideoFrame}

theorem frontPacket_eq (h : r.decoding.Fits fifo frames later)
    (hframe : frames[r.decoding.handled]? = some frame)
    (hle : (submitVideoDataToStream frame).length ≤ (r.decoding.worker.buffered fifo).length) :
    r.decoding.worker.frontPacket = some (packet frame) := by
  have hlength := length_submitVideo frame
  have hheader : r.decoding.worker.peekVideoHeader = some (videoHeader frame) :=
    h.good.peekVideoHeader (by omega) (take_buffered h.bytes hframe (by omega) (by omega))
  have hbytes : r.decoding.worker.frameBuffer.peekOf (6 + frame.data.length) =
      some (submitVideoDataToStream frame) := by
    rw [ChunkRingBuffer.peekOf_eq h.good.wellFormed]
    refine (if_neg (Nat.not_lt.mpr (hlength ▸ hle))).trans (congrArg some ?_)
    rw [← hlength]
    exact (take_buffered h.bytes hframe hle (Nat.le_refl _)).trans (List.take_length)
  unfold VideoStreamWorker.frontPacket
  rw [hheader, Option.bind_some]
  change (r.decoding.worker.frameBuffer.peekOf (6 + frame.data.length)).map _ = _
  rw [hbytes]
  rfl

/-- A decoder that is configured and accepts everything stays so. -/
theorem round_keeps {v v' : VideoDecoding R} {dropping : Bool} (haccepts : Accepts browser)
    (hthrown : v.thrown = false) (hstate : v.state = .configured)
    (h : VideoDecoding.Round browser frame dropping v v') :
    v'.thrown = false ∧ v'.state = .configured := by
  cases h with
  | empty _ _ _ hstate' hthrown' => exact ⟨hthrown'.trans hthrown, hstate'.trans hstate⟩
  | drop _ _ _ _ _ hstate' hthrown' => exact ⟨hthrown'.trans hthrown, hstate'.trans hstate⟩
  | resetThrows _ _ _ hclosed =>
      rw [hstate] at hclosed
      cases hclosed
  | recovered _ _ _ _ _ _ _ _ _ hstate' hthrown' => exact ⟨hthrown'.trans (haccepts _), hstate'⟩
  | decoded _ _ _ _ _ _ _ hstate' hthrown' =>
      rw [haccepts, hstate] at hthrown'
      exact ⟨hthrown', hstate'.trans hstate⟩

theorem Rounds.next (haccepts : Accepts browser) (h : r.Rounds fifo frames later)
    (hframe : frames[r.decoding.handled]? = some frame)
    (hle : (submitVideoDataToStream frame).length ≤ (r.decoding.worker.buffered fifo).length) :
    ∃ r', r.processFrame browser = some r' ∧ r'.Rounds fifo frames later ∧
      (r'.decoding.worker.buffered fifo).length < (r.decoding.worker.buffered fifo).length := by
  obtain ⟨v', hv', hfits, hhandled, hdecoder, hround⟩ :=
    VideoDecoding.processFrame_whole browser h.fits h.thrown hframe hle
  obtain ⟨hthrown, hstate⟩ := round_keeps haccepts h.thrown h.state hround
  refine ⟨⟨v', r.extracted ++ [packet frame]⟩, ?_, ⟨hfits, hthrown, hdecoder.trans h.decoder, hstate, ?_⟩, ?_⟩
  · unfold processFrame
    rw [if_neg (by rw [h.thrown]; exact Bool.false_ne_true), hv', frontPacket_eq h.fits hframe hle]
    rfl
  · change r.extracted ++ [packet frame] = (frames.take v'.handled).map packet
    rw [hhandled, List.take_add_one, hframe, List.map_append, ← h.extracted]
    rfl
  · have hbytes := congrArg List.length h.fits.bytes
    have hbytes' := congrArg List.length hfits.bytes
    rw [flatten_drop_of_getElem? hframe] at hbytes
    rw [hhandled] at hbytes'
    have hpos := length_submitVideo frame
    simp only [List.length_append] at hbytes hbytes'
    change (v'.worker.buffered fifo).length < _
    omega

theorem drain_reads (haccepts : Accepts browser) (rounds : Nat) (h : r.Rounds fifo frames later)
    (hrounds : (r.decoding.worker.buffered fifo).length ≤ rounds) :
    (drain (processFrame browser) rounds r).Reads fifo frames later := by
  induction rounds generalizing r with
  | zero =>
      refine ⟨h.fits, fun frame _ => ?_, fun _ => h.state, h.extracted⟩
      have hpos := length_submitVideo frame
      change (r.decoding.worker.buffered fifo).length < _
      omega
  | succ rounds ih =>
      by_cases hwaits : VideoRun.Waits fifo frames r.decoding
      · have hnone : r.processFrame browser = none := by
          unfold processFrame
          rw [VideoDecoding.processFrame_short browser h.fits hwaits]
          split <;> rfl
        rw [drain_of_none hnone]
        exact ⟨h.fits, hwaits, fun _ => h.state, h.extracted⟩
      · simp only [VideoRun.Waits, not_forall, Nat.not_lt] at hwaits
        obtain ⟨frame, hframe, hle⟩ := hwaits
        obtain ⟨r', hr', hrounds', hlt⟩ := h.next haccepts hframe hle
        rw [drain, hr']
        exact ih hrounds' (by omega)

theorem handleChunkBatch_reads (haccepts : Accepts browser) {batch : List Bytes}
    (h : r.Reads fifo frames (batch.flatten ++ later)) :
    (r.handleChunkBatch browser batch).Reads fifo frames later := by
  have hgood := h.fits.good
  obtain ⟨hwf, hbytes, hheader⟩ := pushChunks_spec hgood.wellFormed batch
  have hstream : (pushChunks r.decoding.worker.frameBuffer batch).bytes fifo ++ later =
      ((frames.drop r.decoding.handled).map submitVideoDataToStream).flatten := by
    rw [hbytes, List.append_assoc]
    exact h.fits.bytes
  have hready : VideoStreamWorker.Ready { r.decoding.worker with
      frameBuffer := pushChunks r.decoding.worker.frameBuffer batch } := hgood.ready
  have hrounds : (pushChunks r.decoding.worker.frameBuffer batch).byteLength =
      ((pushChunks r.decoding.worker.frameBuffer batch).bytes fifo).length := hwf.buffered
  unfold handleChunkBatch VideoDecoding.ensureDecoder
  dsimp only
  by_cases hdecoder : r.decoding.worker.decoder = true
  · rw [if_pos hdecoder]
    refine drain_reads haccepts _ ⟨⟨⟨hready, hwf, hheader.trans hgood.header, hgood.dropping⟩, hstream⟩, rfl,
      hdecoder, h.state hdecoder, h.extracted⟩ (Nat.le_of_eq hrounds.symm)
  · rw [if_neg hdecoder, VideoStreamWorker.ensureDecoder_eq hready]
    exact drain_reads haccepts _ ⟨⟨⟨hready, hwf, hheader.trans hgood.header, hgood.dropping⟩, hstream⟩, rfl,
      rfl, rfl, h.extracted⟩ (Nat.le_of_eq hrounds.symm)

theorem start_reads (fifo : R.Fifo) (frames : List VideoFrame) :
    (start R).Reads fifo frames (frames.map submitVideoDataToStream).flatten := by
  have hinv := VideoRun.Inv.start fifo frames
  exact ⟨hinv.fits, hinv.waits rfl rfl, nofun, rfl⟩

/-- What has been taken off are the frames that have arrived as a whole. -/
theorem Reads.extracted_eq (h : r.Reads fifo frames later) {received : Bytes}
    (hreceived : received ++ later = (frames.map submitVideoDataToStream).flatten) :
    r.extracted = (whole submitVideoDataToStream frames received.length).map packet := by
  have hbytes := congrArg List.length h.fits.bytes
  have htotal := congrArg List.length hreceived
  have hsplit : (frames.map submitVideoDataToStream).flatten =
      ((frames.take r.decoding.handled).map submitVideoDataToStream).flatten ++
        ((frames.drop r.decoding.handled).map submitVideoDataToStream).flatten := by
    rw [← List.flatten_append, ← List.map_append, List.take_append_drop]
  rw [hsplit] at htotal
  simp only [List.length_append] at hbytes htotal
  have hlength : received.length =
      ((frames.take r.decoding.handled).map submitVideoDataToStream).flatten.length +
        (r.decoding.worker.buffered fifo).length := by omega
  rw [h.extracted, hlength, whole_eq_take h.waits]

end VideoReading

end Stratus.Frontend
