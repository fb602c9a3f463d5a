import Stratus.Frontend.MediaFraming
import Stratus.Lib.Frames
import Stratus.Lib.Transition

/-! The decoders of `videoStream.worker.ts` and `audioStream.worker.ts` as objects with a state:
which calls are made on them, in which state, and what happens when one throws.  A worker handles
a batch in rounds, one packet in each. -/
namespace Stratus.Frontend

open Stratus.Lib Stratus.Transport

/-- `VideoDecoder.state`, `AudioDecoder.state`. -/
inductive DecoderState where
  | unconfigured
  | configured
  | closed
deriving DecidableEq

/-- A call, the state in which it finds the decoder, and the packet that is decoded. -/
inductive DecoderCall where
  | configure (state : DecoderState)
  | reset (state : DecoderState)
  | decode (state : DecoderState) (packet : Nat) (chunk : EncodedChunk)

/-- The packets that were decoded. -/
def decodedPackets (calls : List DecoderCall) : List Nat :=
  calls.filterMap fun
    | .decode _ packet _ => some packet
    | _ => none

/-- The states in which `decode` was called. -/
def decodeStates (calls : List DecoderCall) : List DecoderState :=
  calls.filterMap fun
    | .decode state _ _ => some state
    | _ => none

variable {R : RingBuffer Bytes}

/-! ### Video -/

/-- `throws` says of each call of `decode` whether it throws on a configured decoder. -/
structure VideoBrowser where
  decodeQueueSize : Nat → Nat
  throws : Nat → Bool

/-- `state` is that of the decoder, when there is one.  `handled` counts the packets that were
taken off the buffer, `dropped` are those that were dropped for congestion, and `thrown` says
whether an exception has ended the loop. -/
structure VideoDecoding (R : RingBuffer Bytes) where
  worker : VideoStreamWorker R
  state : DecoderState
  calls : List DecoderCall
  handled : Nat
  dropped : List Nat
  thrown : Bool

namespace VideoDecoding

def ensureDecoder (v : VideoDecoding R) : Option (VideoDecoding R) :=
  if v.worker.decoder then some v
  else
    v.worker.ensureDecoder.map fun worker =>
      { v with
        worker := worker
        state := .configured
        calls := v.calls ++ [.configure .unconfigured] }

/-- `reset` throws on a closed decoder. -/
def recoverFromCongestionIfNeeded (v : VideoDecoding R) : VideoDecoding R :=
  if !v.worker.droppingUntilKeyframe then v
  else if v.state = .closed then { v with calls := v.calls ++ [.reset .closed], thrown := true }
  else
    { v with
      worker := v.worker.recoverFromCongestionIfNeeded
      state := .configured
      calls := v.calls ++ [.reset v.state, .configure .unconfigured] }

def decodeFrame (browser : VideoBrowser) (v : VideoDecoding R) (header : VideoMessageHeader)
    (frameData : Bytes) : VideoDecoding R :=
  { v with
    worker := v.worker.decodeFrame header frameData
    calls := v.calls ++ [.decode v.state v.handled
      { type := header.chunkType, timestamp := v.worker.timestampUs, data := frameData }]
    thrown := v.state ≠ .configured || browser.throws v.worker.decoded.length }

def processPayload (browser : VideoBrowser) (v : VideoDecoding R) (header : VideoMessageHeader) :
    Option (VideoDecoding R) :=
  if header.payloadLen < 1 then some v
  else if v.worker.shouldDropForCongestion header then
    (v.worker.frameBuffer.discard header.payloadLen).map fun frameBuffer =>
      { v with
        worker := { v.worker with frameBuffer := frameBuffer }
        dropped := v.dropped ++ [v.handled] }
  else
    (v.worker.frameBuffer.take header.payloadLen).map fun result =>
      let v := recoverFromCongestionIfNeeded
        { v with worker := { v.worker with frameBuffer := result.1 } }
      if v.thrown then v else v.decodeFrame browser header result.2

/-- One round of the loop of `processFrames`; `none` when it ends. -/
def processFrame (browser : VideoBrowser) (v : VideoDecoding R) : Option (VideoDecoding R) :=
  if v.worker.frameBuffer.byteLength < videoMessageHeaderBytes then none
  else
    match v.worker.peekVideoHeader with
    | none => none
    | some header =>
        if v.worker.frameBuffer.byteLength < videoMessageHeaderBytes + header.payloadLen then none
        else
          let worker := v.worker.applyCongestionControlBeforeFrame browser.decodeQueueSize
          match worker.frameBuffer.discard videoMessageHeaderBytes with
          | none => none
          | some frameBuffer =>
              (processPayload browser { v with worker := { worker with frameBuffer := frameBuffer } }
                header).map fun v => { v with handled := v.handled + 1 }

/-- After `init`, with a canvas that has a context. -/
def start (R : RingBuffer Bytes) : VideoDecoding R where
  worker := (VideoStreamWorker.create R).handleInit true
  state := .unconfigured
  calls := []
  handled := 0
  dropped := []
  thrown := false

end VideoDecoding

/-- `busy` while a batch is handled; `later` are the bytes of the stream that have not arrived. -/
structure VideoRun (R : RingBuffer Bytes) where
  decoding : VideoDecoding R
  busy : Bool
  later : Bytes

inductive MediaEvent where
  | batch (chunks : List Bytes)
  | round
  | error
deriving DecidableEq

namespace VideoRun

/-- A decoding error closes the decoder, while no message is handled; the worker only logs it. -/
def next (browser : VideoBrowser) (s : VideoRun R) : MediaEvent → Option (VideoRun R)
  | .batch chunks =>
      if s.busy ∨ ¬ chunks.flatten <+: s.later then none
      else
        let received :=
          { s.decoding with
            worker := { s.decoding.worker with
              frameBuffer := pushChunks s.decoding.worker.frameBuffer chunks }
            thrown := false }
        match received.ensureDecoder with
        | none => some ⟨received, false, s.later.drop chunks.flatten.length⟩
        | some v => some ⟨v, true, s.later.drop chunks.flatten.length⟩
  | .round =>
      if !s.busy then none
      else
        match s.decoding.processFrame browser with
        | none => some { s with busy := false }
        | some v => some { s with decoding := v, busy := !v.thrown }
  | .error =>
      if s.busy ∨ !s.decoding.worker.decoder ∨ s.decoding.state ≠ .configured then none
      else some { s with decoding := { s.decoding with state := .closed } }

/-- The runs on the packets of some frames, in which each event is allowed. -/
def system (R : RingBuffer Bytes) (browser : VideoBrowser) (frames : List VideoFrame)
    (allowed : VideoRun R → MediaEvent → Prop) : Labelled (VideoRun R) MediaEvent where
  init s := s = ⟨.start R, false, (frames.map submitVideoDataToStream).flatten⟩
  step s event t := allowed s event ∧ s.next browser event = some t

end VideoRun

namespace VideoDecoding

/-- What is done with a frame; `dropping` is what congestion control has decided before. -/
inductive Round (browser : VideoBrowser) (frame : VideoFrame) (dropping : Bool)
    (v v' : VideoDecoding R) : Prop where
  | empty (hdata : frame.data = []) (hcalls : v'.calls = v.calls) (hdropped : v'.dropped = v.dropped)
      (hstate : v'.state = v.state) (hthrown : v'.thrown = v.thrown)
      (hdropping : v'.worker.droppingUntilKeyframe = dropping)
  | drop (hdata : frame.data ≠ []) (hdrop : dropping = true) (hdelta : frame.isDescription = false)
      (hcalls : v'.calls = v.calls) (hdropped : v'.dropped = v.dropped ++ [v.handled])
      (hstate : v'.state = v.state) (hthrown : v'.thrown = v.thrown)
      (hdropping : v'.worker.droppingUntilKeyframe = true)
  | resetThrows (hdata : frame.data ≠ []) (hdrop : dropping = true) (hkey : frame.isDescription = true)
      (hclosed : v.state = .closed) (hstate : v'.state = .closed) (hthrown : v'.thrown = true)
      (hcalls : v'.calls = v.calls ++ [.reset .closed])
  | recovered (chunk : EncodedChunk) (hdata : frame.data ≠ []) (hdrop : dropping = true)
      (hkey : frame.isDescription = true) (hclosed : v.state ≠ .closed)
      (htype : chunk.type = .key) (hchunk : chunk.data = frame.data)
      (hcalls : v'.calls = v.calls ++
        [.reset v.state, .configure .unconfigured, .decode .configured v.handled chunk])
      (hdropped : v'.dropped = v.dropped) (hstate : v'.state = .configured)
      (hthrown : v'.thrown = browser.throws v.worker.decoded.length)
      (hdropping : v'.worker.droppingUntilKeyframe = false)
  | decoded (chunk : EncodedChunk) (hdata : frame.data ≠ []) (hdrop : dropping = false)
      (htype : chunk.type = if frame.isDescription then .key else .delta)
      (hchunk : chunk.data = frame.data)
      (hcalls : v'.calls = v.calls ++ [.decode v.state v.handled chunk])
      (hdropped : v'.dropped = v.dropped) (hstate : v'.state = v.state)
      (hthrown : v'.thrown = (v.state ≠ .configured || browser.throws v.worker.decoded.length))
      (hdropping : v'.worker.droppingUntilKeyframe = false)

variable {fifo : R.Fifo} {browser : VideoBrowser} {v : VideoDecoding R} {frame : VideoFrame}

theorem recover_keep (h : v.worker.droppingUntilKeyframe = false) :
    v.recoverFromCongestionIfNeeded = v := by
  unfold recoverFromCongestionIfNeeded
  rw [h]
  rfl

theorem recover_throws (h : v.worker.droppingUntilKeyframe = true) (hclosed : v.state = .closed) :
    v.recoverFromCongestionIfNeeded =
      { v with calls := v.calls ++ [.reset .closed], thrown := true } := by
  unfold recoverFromCongestionIfNeeded
  rw [h, if_neg (by decide), if_pos hclosed]

theorem recover_resets (h : v.worker.droppingUntilKeyframe = true) (hclosed : v.state ≠ .closed) :
    v.recoverFromCongestionIfNeeded =
      { v with
        worker := { v.worker with timestampUs := 0, droppingUntilKeyframe := false }
        state := .configured
        calls := v.calls ++ [.reset v.state, .configure .unconfigured] } := by
  unfold recoverFromCongestionIfNeeded VideoStreamWorker.recoverFromCongestionIfNeeded
  rw [h, if_neg (by decide), if_neg hclosed, if_pos rfl]

theorem processPayload_spec (browser : VideoBrowser) (h : v.worker.Good fifo)
    (hthrown : v.thrown = false) {rest : Bytes}
    (hbytes : v.worker.buffered fifo = frame.data ++ rest) :
    ∃ v', v.processPayload browser (videoHeader frame) = some v' ∧ v'.worker.Good fifo ∧
      v'.worker.buffered fifo = rest ∧ v'.handled = v.handled ∧
      v'.worker.decoder = v.worker.decoder ∧
      Round browser frame v.worker.droppingUntilKeyframe v v' := by
  have hpayload : (videoHeader frame).payloadLen = frame.data.length := rfl
  unfold processPayload
  rw [hpayload]
  by_cases hempty : frame.data = []
  · have hlen : frame.data.length < 1 := by
      rw [hempty]
      exact Nat.zero_lt_one
    rw [if_pos hlen]
    refine ⟨v, rfl, h, ?_, rfl, rfl, .empty hempty rfl rfl rfl rfl rfl⟩
    rw [hbytes, hempty, List.nil_append]
  · have hpos : 0 < frame.data.length := List.length_pos_iff.mpr hempty
    rw [if_neg (Nat.not_lt.mpr hpos)]
    split
    · next hshould =>
      obtain ⟨hdropping, htype⟩ := Bool.and_eq_true_iff.mp hshould
      have hdelta : frame.isDescription = false := by
        cases hkey : frame.isDescription with
        | false => rfl
        | true => simp [videoHeader, hkey] at htype
      obtain ⟨frameBuffer, hdiscard, hwf, hbytes', hheader⟩ :=
        ChunkRingBuffer.discard_front h.wellFormed hbytes
      rw [hdiscard]
      refine ⟨_, rfl, ⟨h.ready, hwf, hheader.trans h.header, h.dropping⟩, hbytes', rfl, rfl, ?_⟩
      exact .drop hempty hdropping hdelta rfl rfl rfl rfl hdropping
    · next hshould =>
      obtain ⟨frameBuffer, htaken, hwf, hbytes', hheader⟩ :=
        ChunkRingBuffer.take_front h.wellFormed hbytes hempty
      replace hheader := hheader.trans h.header
      rw [htaken, Option.map_some]
      refine ⟨_, rfl, ?_⟩
      have hnotThrown : ¬ v.thrown = true := by
        rw [hthrown]
        exact Bool.false_ne_true
      let taken := { v with worker := { v.worker with frameBuffer := frameBuffer } }
      by_cases hdropping : v.worker.droppingUntilKeyframe = true
      · have hkey : frame.isDescription = true := by
          cases hkey : frame.isDescription with
          | true => rfl
          | false =>
              simp [VideoStreamWorker.shouldDropForCongestion, hdropping, videoHeader, hkey] at hshould
        by_cases hclosed : v.state = .closed
        · have hthrows : taken.recoverFromCongestionIfNeeded = _ := recover_throws hdropping hclosed
          dsimp only [taken] at hthrows ⊢
          rw [hthrows, if_pos rfl]
          refine ⟨⟨h.ready, hwf, hheader, h.dropping⟩, hbytes', rfl, rfl, ?_⟩
          exact .resetThrows hempty hdropping hkey hclosed hclosed rfl rfl
        · have hresets : taken.recoverFromCongestionIfNeeded = _ := recover_resets hdropping hclosed
          dsimp only [taken] at hresets ⊢
          rw [hresets, if_neg hnotThrown]
          refine ⟨⟨h.ready, hwf, hheader, fun _ => rfl⟩, hbytes', rfl, rfl, ?_⟩
          refine .recovered _ hempty hdropping hkey hclosed ?_ rfl (List.append_assoc _ _ _) rfl rfl ?_ rfl
          · simp [videoHeader, hkey]
          · rfl
      · rw [Bool.not_eq_true] at hdropping
        have hkeep : taken.recoverFromCongestionIfNeeded = _ := recover_keep hdropping
        dsimp only [taken] at hkeep ⊢
        rw [hkeep, if_neg hnotThrown]
        refine ⟨⟨h.ready, hwf, hheader, h.dropping⟩, hbytes', rfl, rfl, ?_⟩
        exact .decoded _ hempty hdropping rfl rfl rfl rfl rfl rfl hdropping

/-- A round begins with the worker as congestion control has left it. -/
theorem Round.of_worker {dropping : Bool} {worker : VideoStreamWorker R} {v' : VideoDecoding R}
    (hdecoded : worker.decoded = v.worker.decoded) (handled : Nat)
    (h : Round browser frame dropping { v with worker := worker } v') :
    Round browser frame dropping v { v' with handled := handled } := by
  cases h with
  | empty hdata hcalls hdropped hstate hthrown hdropping =>
      exact .empty hdata hcalls hdropped hstate hthrown hdropping
  | drop hdata hdrop hdelta hcalls hdropped hstate hthrown hdropping =>
      exact .drop hdata hdrop hdelta hcalls hdropped hstate hthrown hdropping
  | resetThrows hdata hdrop hkey hclosed hstate hthrown hcalls =>
      exact .resetThrows hdata hdrop hkey hclosed hstate hthrown hcalls
  | recovered chunk hdata hdrop hkey hclosed htype hchunk hcalls hdropped hstate hthrown hdropping =>
      refine .recovered chunk hdata hdrop hkey hclosed htype hchunk hcalls hdropped hstate ?_ hdropping
      rw [← hdecoded]
      exact hthrown
  | decoded chunk hdata hdrop htype hchunk hcalls hdropped hstate hthrown hdropping =>
      refine .decoded chunk hdata hdrop htype hchunk hcalls hdropped hstate ?_ hdropping
      rw [← hdecoded]
      exact hthrown

/-- The buffer holds what has arrived of the packets that are not handled yet. -/
structure Fits (fifo : R.Fifo) (frames : List VideoFrame) (later : Bytes) (v : VideoDecoding R) :
    Prop where
  good : v.worker.Good fifo
  bytes : v.worker.buffered fifo ++ later =
    ((frames.drop v.handled).map submitVideoDataToStream).flatten

/-- What congestion control decides before the next frame. -/
def dropsNext (browser : VideoBrowser) (v : VideoDecoding R) : Bool :=
  (v.worker.applyCongestionControlBeforeFrame browser.decodeQueueSize).droppingUntilKeyframe

theorem dropsNext_of_dropping (h : v.worker.droppingUntilKeyframe = true) :
    v.dropsNext browser = true := by
  unfold dropsNext VideoStreamWorker.applyCongestionControlBeforeFrame
  rw [if_pos h]
  exact h

variable {frames : List VideoFrame} {later : Bytes}

theorem processFrame_short (browser : VideoBrowser) (h : v.Fits fifo frames later)
    (hshort : ∀ frame ∈ frames[v.handled]?,
      (v.worker.buffered fifo).length < (submitVideoDataToStream frame).length) :
    v.processFrame browser = none := by
  unfold processFrame
  rw [h.good.byteLength]
  split
  · rfl
  · next hle =>
    have hle : 6 ≤ (v.worker.buffered fifo).length := Nat.not_lt.mp hle
    obtain ⟨frame, hframe⟩ := exists_of_buffered h.bytes (by omega)
    have hlt := hshort frame hframe
    rw [h.good.peekVideoHeader hle (take_buffered h.bytes hframe hle (by omega))]
    rw [length_submitVideo] at hlt
    exact if_pos hlt

theorem processFrame_whole (browser : VideoBrowser) (h : v.Fits fifo frames later)
    (hthrown : v.thrown = false) (hframe : frames[v.handled]? = some frame)
    (hle : (submitVideoDataToStream frame).length ≤ (v.worker.buffered fifo).length) :
    ∃ v', v.processFrame browser = some v' ∧ v'.Fits fifo frames later ∧
      v'.handled = v.handled + 1 ∧ v'.worker.decoder = v.worker.decoder ∧
      Round browser frame (v.dropsNext browser) v v' := by
  have hlength := length_submitVideo frame
  obtain ⟨rest, hrest, hbytes⟩ := exists_rest h.bytes hframe hle
  have hheader : v.worker.peekVideoHeader = some (videoHeader frame) :=
    h.good.peekVideoHeader (by omega) (take_buffered h.bytes hframe (by omega) (by omega))
  obtain ⟨hbuffer, hdecoded, hready, hdropping⟩ := v.worker.congestion_spec browser.decodeQueueSize
  obtain ⟨frameBuffer, hdiscard, hwf, hafter, hheaderBytes⟩ :=
    ChunkRingBuffer.discard_eq h.good.wellFormed
      (show 6 ≤ (v.worker.buffered fifo).length by omega)
  have hgood : VideoStreamWorker.Good fifo
      { v.worker.applyCongestionControlBeforeFrame browser.decodeQueueSize with
        frameBuffer := frameBuffer } :=
    ⟨hready h.good.ready, hwf, hheaderBytes.trans h.good.header,
      fun hlogged => (hdropping h.good.dropping hlogged).2⟩
  have hpayload : frameBuffer.bytes fifo = frame.data ++ rest := by
    rw [hafter]
    exact congrArg (List.drop 6) hrest
  obtain ⟨v', hv', hgood', hbytes', hhandled, hdecoder, hround⟩ := processPayload_spec
    browser (v := { v with
      worker := { v.worker.applyCongestionControlBeforeFrame browser.decodeQueueSize with
        frameBuffer := frameBuffer } }) hgood hthrown hpayload
  replace hhandled : v'.handled = v.handled := hhandled
  refine ⟨{ v' with handled := v'.handled + 1 }, ?_, ⟨hgood', ?_⟩, ?_, ?_, ?_⟩
  · have hsix : ¬ (v.worker.buffered fifo).length < videoMessageHeaderBytes :=
      Nat.not_lt.mpr (show 6 ≤ (v.worker.buffered fifo).length by omega)
    have hall : ¬ (v.worker.buffered fifo).length <
        videoMessageHeaderBytes + (videoHeader frame).payloadLen :=
      Nat.not_lt.mpr (hlength ▸ hle)
    have hdiscard' : (v.worker.applyCongestionControlBeforeFrame
        browser.decodeQueueSize).frameBuffer.discard videoMessageHeaderBytes = some frameBuffer := by
      rw [hbuffer]
      exact hdiscard
    unfold processFrame
    simp only [h.good.byteLength, hsix, if_false, hheader, hall, hdiscard']
    rw [hv']
    rfl
  · change v'.worker.buffered fifo ++ later = _
    rw [hbytes', hhandled]
    exact hbytes
  · rw [hhandled]
  · rw [hdecoder]
    unfold VideoStreamWorker.applyCongestionControlBeforeFrame
    split <;> rfl
  · have hkept : VideoStreamWorker.decoded
        { v.worker.applyCongestionControlBeforeFrame browser.decodeQueueSize with
          frameBuffer := frameBuffer } = v.worker.decoded := hdecoded
    exact Round.of_worker hkept _ hround

theorem recover_worker (hthrown : v.thrown = false) (hclosed : v.state ≠ .closed) :
    v.recoverFromCongestionIfNeeded.thrown = false ∧
      v.recoverFromCongestionIfNeeded.worker = v.worker.recoverFromCongestionIfNeeded := by
  cases hdropping : v.worker.droppingUntilKeyframe with
  | false =>
      rw [recover_keep hdropping, VideoStreamWorker.recoverFromCongestionIfNeeded, hdropping]
      exact ⟨hthrown, rfl⟩
  | true =>
      rw [recover_resets hdropping hclosed, VideoStreamWorker.recoverFromCongestionIfNeeded, hdropping]
      exact ⟨hthrown, rfl⟩

theorem processPayload_worker (browser : VideoBrowser) (hthrown : v.thrown = false)
    (hclosed : v.state ≠ .closed) (header : VideoMessageHeader) :
    (v.processPayload browser header).map worker = v.worker.processPayload header := by
  unfold processPayload VideoStreamWorker.processPayload
  split
  · rfl
  · split
    · rw [Option.map_map]
      rfl
    · rw [Option.map_map]
      congr 1
      funext result
      obtain ⟨hnot, hworker⟩ := recover_worker (v := { v with
        worker := { v.worker with frameBuffer := result.1 } }) hthrown hclosed
      dsimp only [Function.comp_apply]
      rw [if_neg (Bool.eq_false_iff.mp hnot), ← hworker]
      rfl

/-- While nothing throws, the worker is the one whose decoder accepts everything. -/
theorem processFrame_worker (browser : VideoBrowser) (v : VideoDecoding R) (hthrown : v.thrown = false)
    (hclosed : v.state ≠ .closed) :
    (v.processFrame browser).map worker = v.worker.processFrame browser.decodeQueueSize := by
  unfold processFrame VideoStreamWorker.processFrame
  split
  · rfl
  · cases v.worker.peekVideoHeader with
    | none => rfl
    | some header =>
        dsimp only
        split
        · rfl
        · cases (v.worker.applyCongestionControlBeforeFrame
            browser.decodeQueueSize).frameBuffer.discard videoMessageHeaderBytes with
          | none => rfl
          | some frameBuffer =>
              dsimp only
              rw [Option.map_map]
              exact processPayload_worker (v := { v with
                worker := { v.worker.applyCongestionControlBeforeFrame browser.decodeQueueSize with
                  frameBuffer := frameBuffer } }) browser hthrown hclosed header

end VideoDecoding

namespace VideoRun

open VideoDecoding

variable {fifo : R.Fifo} {browser : VideoBrowser} {frames : List VideoFrame} {s t : VideoRun R}

/-- The next packet is not there as a whole. -/
def Waits (fifo : R.Fifo) (frames : List VideoFrame) (v : VideoDecoding R) : Prop :=
  ∀ frame ∈ frames[v.handled]?,
    (v.worker.buffered fifo).length < (submitVideoDataToStream frame).length

structure Inv (fifo : R.Fifo) (frames : List VideoFrame) (s : VideoRun R) : Prop where
  fits : s.decoding.Fits fifo frames s.later
  busy : s.busy = true → s.decoding.thrown = false ∧ s.decoding.worker.decoder = true
  waits : s.busy = false → s.decoding.thrown = false → Waits fifo frames s.decoding
  fresh : s.decoding.worker.decoder = false → s.decoding.handled = 0

/-- What an event does. -/
inductive Does (fifo : R.Fifo) (browser : VideoBrowser) (frames : List VideoFrame) (s t : VideoRun R) :
    MediaEvent → Prop where
  | first (chunks : List Bytes) (hbusy : t.busy = true) (hfresh : s.decoding.handled = 0)
      (hcalls : t.decoding.calls = s.decoding.calls ++ [.configure .unconfigured])
      (hstate : t.decoding.state = .configured) (hhandled : t.decoding.handled = s.decoding.handled)
      (hdropped : t.decoding.dropped = s.decoding.dropped)
      (hdropping : t.decoding.worker.droppingUntilKeyframe = s.decoding.worker.droppingUntilKeyframe) :
      Does fifo browser frames s t (.batch chunks)
  | batch (chunks : List Bytes) (hbusy : t.busy = true) (hdecoder : s.decoding.worker.decoder = true)
      (hcalls : t.decoding.calls = s.decoding.calls) (hstate : t.decoding.state = s.decoding.state)
      (hhandled : t.decoding.handled = s.decoding.handled)
      (hdropped : t.decoding.dropped = s.decoding.dropped)
      (hdropping : t.decoding.worker.droppingUntilKeyframe = s.decoding.worker.droppingUntilKeyframe) :
      Does fifo browser frames s t (.batch chunks)
  | done (hbusy : s.busy = true) (heq : t = { s with busy := false }) :
      Does fifo browser frames s t .round
  | round (frame : VideoFrame) (hbusy : s.busy = true)
      (hframe : frames[s.decoding.handled]? = some frame)
      (hwhole : (submitVideoDataToStream frame).length ≤ (s.decoding.worker.buffered fifo).length)
      (hround : Round browser frame (s.decoding.dropsNext browser) s.decoding t.decoding)
      (hhandled : t.decoding.handled = s.decoding.handled + 1) (hlater : t.later = s.later) :
      Does fifo browser frames s t .round
  | error (hdecoder : s.decoding.worker.decoder = true) (hstate : s.decoding.state = .configured)
      (heq : t = { s with decoding := { s.decoding with state := .closed } }) :
      Does fifo browser frames s t .error

theorem Inv.start (fifo : R.Fifo) (frames : List VideoFrame) :
    Inv fifo frames ⟨.start R, false, (frames.map submitVideoDataToStream).flatten⟩ := by
  have hbytes : VideoStreamWorker.buffered fifo (VideoDecoding.start R).worker = [] :=
    ChunkRingBuffer.bytes_create fifo videoMessageHeaderBytes
  refine ⟨⟨⟨⟨rfl, rfl, rfl⟩, .create fifo videoMessageHeaderBytes, rfl, fun _ => rfl⟩, ?_⟩, nofun, ?_,
    fun _ => rfl⟩
  · rw [hbytes]
    rfl
  · intro _ _ frame _
    rw [hbytes, length_submitVideo, List.length_nil]
    omega

theorem next_batch (h : Inv fifo frames s) {chunks : List Bytes}
    (hnext : s.next browser (.batch chunks) = some t) :
    Inv fifo frames t ∧ Does fifo browser frames s t (.batch chunks) := by
  have hgood := h.fits.good
  obtain ⟨hwf, hbytes, hheader⟩ := pushChunks_spec hgood.wellFormed chunks
  unfold next at hnext
  dsimp only at hnext
  split at hnext
  · cases hnext
  · next hallowed =>
    obtain ⟨hbusy, hpart⟩ := not_or.mp hallowed
    obtain ⟨later, hlater⟩ := not_not.mp hpart
    rw [← hlater, List.drop_left] at hnext
    have hstream : (pushChunks s.decoding.worker.frameBuffer chunks).bytes fifo ++ later =
        ((frames.drop s.decoding.handled).map submitVideoDataToStream).flatten := by
      rw [hbytes, List.append_assoc, hlater]
      exact h.fits.bytes
    have hready : VideoStreamWorker.Ready { s.decoding.worker with
        frameBuffer := pushChunks s.decoding.worker.frameBuffer chunks } := hgood.ready
    by_cases hdecoder : s.decoding.worker.decoder = true
    · unfold VideoDecoding.ensureDecoder at hnext
      rw [if_pos hdecoder] at hnext
      cases hnext
      refine ⟨⟨⟨⟨hready, hwf, hheader.trans hgood.header, hgood.dropping⟩, hstream⟩, ?_, nofun, h.fresh⟩,
        ?_⟩
      · exact fun _ => ⟨rfl, hdecoder⟩
      · exact .batch chunks rfl hdecoder rfl rfl rfl rfl rfl
    · unfold VideoDecoding.ensureDecoder at hnext
      rw [if_neg hdecoder, VideoStreamWorker.ensureDecoder_eq hready] at hnext
      cases hnext
      refine ⟨⟨⟨⟨hready, hwf, hheader.trans hgood.header, hgood.dropping⟩, hstream⟩, ?_, nofun, nofun⟩,
        ?_⟩
      · exact fun _ => ⟨rfl, rfl⟩
      · exact .first chunks rfl (h.fresh (Bool.eq_false_iff.mpr hdecoder)) rfl rfl rfl rfl rfl

theorem next_round (h : Inv fifo frames s) (hnext : s.next browser .round = some t) :
    Inv fifo frames t ∧ Does fifo browser frames s t .round := by
  unfold next at hnext
  dsimp only at hnext
  split at hnext
  · cases hnext
  · next hbusy =>
    replace hbusy : s.busy = true := by simpa using hbusy
    obtain ⟨hthrown, hdecoder⟩ := h.busy hbusy
    by_cases hwaits : Waits fifo frames s.decoding
    · rw [processFrame_short browser h.fits hwaits] at hnext
      cases hnext
      exact ⟨⟨h.fits, nofun, fun _ _ => hwaits, h.fresh⟩, .done hbusy rfl⟩
    · simp only [Waits, not_forall, Nat.not_lt] at hwaits
      obtain ⟨frame, hframe, hle⟩ := hwaits
      obtain ⟨v', hv', hfits, hhandled, hdecoder', hround⟩ :=
        processFrame_whole browser h.fits hthrown hframe hle
      rw [hv'] at hnext
      cases hnext
      refine ⟨⟨hfits, ?_, ?_, ?_⟩, .round frame hbusy hframe hle hround hhandled rfl⟩
      · intro hgoes
        exact ⟨by simpa using hgoes, hdecoder'.trans hdecoder⟩
      · intro hstops hnot
        rw [hnot] at hstops
        cases hstops
      · intro hnone
        rw [hdecoder', hdecoder] at hnone
        cases hnone

theorem next_error (h : Inv fifo frames s) (hnext : s.next browser .error = some t) :
    Inv fifo frames t ∧ Does fifo browser frames s t .error := by
  unfold next at hnext
  dsimp only at hnext
  split at hnext
  · cases hnext
  · next hallowed =>
    cases hnext
    simp only [not_or, Bool.not_eq_true', Bool.not_eq_false, ne_eq, Decidable.not_not] at hallowed
    obtain ⟨hbusy, hdecoder, hstate⟩ := hallowed
    exact ⟨⟨⟨h.fits.good, h.fits.bytes⟩, h.busy, h.waits, h.fresh⟩, .error hdecoder hstate rfl⟩

theorem next_spec (h : Inv fifo frames s) {event : MediaEvent}
    (hnext : s.next browser event = some t) :
    Inv fifo frames t ∧ Does fifo browser frames s t event := by
  cases event with
  | batch chunks => exact next_batch h hnext
  | round => exact next_round h hnext
  | error => exact next_error h hnext

end VideoRun

end Stratus.Frontend
