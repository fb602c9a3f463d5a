import Stratus.Frontend.DecoderCalls

/-! The calls that `audioStream.worker.ts` makes on its decoder. -/
namespace Stratus.Frontend

open Stratus.Lib Stratus.Transport

variable {R : RingBuffer Bytes}

/-- As for video; `thrown` says whether a call that has thrown has ended the loop. -/
structure AudioDecoding (R : RingBuffer Bytes) where
  worker : AudioStreamWorker R
  state : DecoderState
  calls : List DecoderCall
  handled : Nat
  thrown : Bool

namespace AudioDecoding

def ensureDecoder (a : AudioDecoding R) : AudioDecoding R :=
  if a.worker.decoder then a
  else
    { a with
      worker := { a.worker with decoder := true }
      state := .configured
      calls := a.calls ++ [.configure .unconfigured] }

def resetDecoder (a : AudioDecoding R) : AudioDecoding R :=
  { a with
    worker := { a.worker with timestampUs := 0 }
    state := if a.worker.decoder ∧ a.state ≠ .closed then .unconfigured else a.state
    calls := if a.worker.decoder ∧ a.state ≠ .closed then a.calls ++ [.reset a.state] else a.calls }

/-- `decode` and what follows it; `throws` says of each call whether it throws on a configured
decoder. -/
def decodeFrame (throws : Nat → Bool) (a : AudioDecoding R) (frameData : Bytes) : AudioDecoding R :=
  let chunk : EncodedChunk := { type := .key, timestamp := a.worker.timestampUs, data := frameData }
  let called : AudioDecoding R :=
    { a with
      worker := { a.worker with decoded := a.worker.decoded ++ [chunk] }
      calls := a.calls ++ [.decode a.state a.handled chunk] }
  if a.state ≠ .configured ∨ throws a.worker.decoded.length then
    { called.resetDecoder with thrown := true }
  else
    { called with
      worker := { called.worker with timestampUs := a.worker.timestampUs + audioFrameDurationUs } }

def processPayload (throws : Nat → Bool) (a : AudioDecoding R) (streamType : UInt8)
    (payloadLen : Nat) : Option (AudioDecoding R) :=
  if payloadLen < 1 then some a
  else
    let worker := { a.worker with streamType := some (a.worker.streamType.getD streamType) }
    if worker.streamType ≠ some streamType then
      (worker.frameBuffer.discard payloadLen).map fun frameBuffer =>
        { a with worker := { worker with frameBuffer := frameBuffer } }
    else
      (worker.frameBuffer.take payloadLen).map fun result =>
        decodeFrame throws { a with worker := { worker with frameBuffer := result.1 } } result.2

/-- One round of the loop of `processFrames`; `none` when it ends. -/
def processFrame (throws : Nat → Bool) (a : AudioDecoding R) : Option (AudioDecoding R) :=
  if a.worker.frameBuffer.byteLength < audioMessageHeaderBytes then none
  else
    match a.worker.peekAudioHeader with
    | none => none
    | some (streamType, payloadLen) =>
        if a.worker.frameBuffer.byteLength < audioMessageHeaderBytes + payloadLen then none
        else
          match a.worker.frameBuffer.discard audioMessageHeaderBytes with
          | none => none
          | some frameBuffer =>
              (processPayload throws { a with worker := { a.worker with frameBuffer := frameBuffer } }
                streamType payloadLen).map fun a => { a with handled := a.handled + 1 }

def start (R : RingBuffer Bytes) : AudioDecoding R where
  worker := (AudioStreamWorker.create R).handleInit
  state := .unconfigured
  calls := []
  handled := 0
  thrown := false

/-! ### What a round does -/

inductive Round (throws : Nat → Bool) (frame : AudioFrame) (a a' : AudioDecoding R) : Prop where
  | empty (hdata : frame.data = []) (hcalls : a'.calls = a.calls) (hstate : a'.state = a.state)
      (hthrown : a'.thrown = a.thrown)
  | decoded (chunk : EncodedChunk) (hdata : frame.data ≠ []) (hconfigured : a.state = .configured)
      (hthrows : throws a.worker.decoded.length = false) (hchunk : chunk.data = frame.data)
      (hcalls : a'.calls = a.calls ++ [.decode .configured a.handled chunk])
      (hstate : a'.state = .configured) (hthrown : a'.thrown = a.thrown)
  | failed (chunk : EncodedChunk) (hdata : frame.data ≠ [])
      (hthrows : a.state ≠ .configured ∨ throws a.worker.decoded.length = true)
      (hchunk : chunk.data = frame.data)
      (hcalls : ∃ resets, (∀ call ∈ resets, call = .reset a.state) ∧
        a'.calls = a.calls ++ .decode a.state a.handled chunk :: resets)
      (hstate : a'.state ≠ .configured) (hthrown : a'.thrown = true)

variable {fifo : R.Fifo} {throws : Nat → Bool} {a : AudioDecoding R} {frame : AudioFrame}

theorem decodeFrame_spec (throws : Nat → Bool) (h : a.worker.Good fifo) (hdata : frame.data ≠ []) :
    (a.decodeFrame throws frame.data).worker.Good fifo ∧
      (a.decodeFrame throws frame.data).worker.buffered fifo = a.worker.buffered fifo ∧
      (a.decodeFrame throws frame.data).handled = a.handled ∧
      (a.decodeFrame throws frame.data).worker.decoder = a.worker.decoder ∧
      (a.worker.decoder = true → Round throws frame a (a.decodeFrame throws frame.data)) := by
  unfold decodeFrame
  dsimp only
  split
  · next hthrows =>
    refine ⟨⟨h.ready, h.wellFormed, h.header, h.streamType⟩, rfl, rfl, rfl, fun hdecoder => ?_⟩
    refine .failed ⟨.key, a.worker.timestampUs, frame.data⟩ hdata hthrows rfl ?_ ?_ rfl
    · by_cases hclosed : a.state = .closed
      · refine ⟨[], nofun, ?_⟩
        simp only [resetDecoder, hdecoder, hclosed, ne_eq, not_true_eq_false, and_false, if_false]
      · refine ⟨[.reset a.state], fun call hmem => List.mem_singleton.mp hmem, ?_⟩
        simp only [resetDecoder, hdecoder, hclosed, ne_eq, not_false_eq_true, and_self, if_true,
          List.append_assoc, List.singleton_append]
    · by_cases hclosed : a.state = .closed
      · simp only [resetDecoder, hclosed, ne_eq, not_true_eq_false, and_false, if_false]
        exact nofun
      · simp only [resetDecoder, hdecoder, hclosed, ne_eq, not_false_eq_true, and_self, if_true]
        exact nofun
  · next hthrows =>
    simp only [not_or, Decidable.not_not, Bool.not_eq_true] at hthrows
    refine ⟨⟨h.ready, h.wellFormed, h.header, h.streamType⟩, rfl, rfl, rfl, fun _ => ?_⟩
    refine .decoded ⟨.key, a.worker.timestampUs, frame.data⟩ hdata hthrows.1 hthrows.2 rfl ?_
      hthrows.1 rfl
    rw [hthrows.1]

/-- A round begins without the header. -/
theorem Round.of_worker {worker : AudioStreamWorker R} {a' : AudioDecoding R}
    (hdecoded : worker.decoded = a.worker.decoded) (handled : Nat)
    (h : Round throws frame { a with worker := worker } a') :
    Round throws frame a { a' with handled := handled } := by
  cases h with
  | empty hdata hcalls hstate hthrown => exact .empty hdata hcalls hstate hthrown
  | decoded chunk hdata hconfigured hthrows hchunk hcalls hstate hthrown =>
      exact .decoded chunk hdata hconfigured (hdecoded ▸ hthrows) hchunk hcalls hstate hthrown
  | failed chunk hdata hthrows hchunk hcalls hstate hthrown =>
      exact .failed chunk hdata (hdecoded ▸ hthrows) hchunk hcalls hstate hthrown

theorem processPayload_spec (throws : Nat → Bool) (h : a.worker.Good fifo)
    (hdecoder : a.worker.decoder = true) {rest : Bytes}
    (hbytes : a.worker.buffered fifo = frame.data ++ rest) :
    ∃ a', a.processPayload throws streamAudio frame.data.length = some a' ∧ a'.worker.Good fifo ∧
      a'.worker.buffered fifo = rest ∧ a'.handled = a.handled ∧ a'.worker.decoder = true ∧
      ∀ handled, Round throws frame a { a' with handled := handled } := by
  unfold processPayload
  by_cases hempty : frame.data = []
  · have hlen : frame.data.length < 1 := by
      rw [hempty]
      exact Nat.zero_lt_one
    rw [if_pos hlen]
    refine ⟨a, rfl, h, ?_, rfl, hdecoder, fun _ => .empty hempty rfl rfl rfl⟩
    rw [hbytes, hempty, List.nil_append]
  · have hpos : 0 < frame.data.length := List.length_pos_iff.mpr hempty
    have htype : a.worker.streamType.getD streamAudio = streamAudio := by
      cases hw : a.worker.streamType with
      | none => rfl
      | some streamType => exact h.streamType streamType hw
    obtain ⟨frameBuffer, htaken, hwf, hbytes', hheader⟩ :=
      ChunkRingBuffer.take_front h.wellFormed hbytes hempty
    rw [if_neg (Nat.not_lt.mpr hpos), htype]
    dsimp only
    rw [if_neg (fun hne => hne rfl), htaken, Option.map_some]
    have hgood : AudioStreamWorker.Good fifo { a.worker with
        frameBuffer := frameBuffer, streamType := some streamAudio } :=
      ⟨h.ready, hwf, hheader.trans h.header, by rintro _ ⟨⟩; rfl⟩
    obtain ⟨hgood', hsame, hhandled, hdecoder', hround⟩ := decodeFrame_spec
      (a := { a with worker := { a.worker with
        frameBuffer := frameBuffer, streamType := some streamAudio } }) throws hgood hempty
    refine ⟨_, rfl, hgood', hsame.trans hbytes', hhandled, hdecoder'.trans hdecoder, ?_⟩
    intro handled
    have hkept : AudioStreamWorker.decoded { a.worker with
        frameBuffer := frameBuffer, streamType := some streamAudio } = a.worker.decoded := rfl
    exact Round.of_worker hkept handled (hround hdecoder)

/-- The buffer holds what has arrived of the packets that are not handled yet. -/
structure Fits (fifo : R.Fifo) (frames : List AudioFrame) (later : Bytes) (a : AudioDecoding R) :
    Prop where
  good : a.worker.Good fifo
  bytes : a.worker.buffered fifo ++ later =
    ((frames.drop a.handled).map submitAudioDataToStream).flatten

variable {frames : List AudioFrame} {later : Bytes}

theorem processFrame_short (throws : Nat → Bool) (h : a.Fits fifo frames later)
    (hshort : ∀ frame ∈ frames[a.handled]?,
      (a.worker.buffered fifo).length < (submitAudioDataToStream frame).length) :
    a.processFrame throws = none := by
  unfold processFrame
  rw [h.good.byteLength]
  split
  · rfl
  · next hle =>
    have hle : 5 ≤ (a.worker.buffered fifo).length := Nat.not_lt.mp hle
    obtain ⟨frame, hframe⟩ := exists_of_buffered h.bytes (by omega)
    have hlt := hshort frame hframe
    rw [h.good.peekAudioHeader hle (take_buffered h.bytes hframe hle (by omega))]
    rw [length_submitAudio] at hlt
    exact if_pos hlt

theorem processFrame_whole (throws : Nat → Bool) (h : a.Fits fifo frames later)
    (hdecoder : a.worker.decoder = true) (hframe : frames[a.handled]? = some frame)
    (hle : (submitAudioDataToStream frame).length ≤ (a.worker.buffered fifo).length) :
    ∃ a', a.processFrame throws = some a' ∧ a'.Fits fifo frames later ∧
      a'.handled = a.handled + 1 ∧ a'.worker.decoder = true ∧ Round throws frame a a' := by
  have hlength := length_submitAudio frame
  obtain ⟨rest, hrest, hbytes⟩ := exists_rest h.bytes hframe hle
  have hheader : a.worker.peekAudioHeader = some (streamAudio, frame.data.length) :=
    h.good.peekAudioHeader (by omega) (take_buffered h.bytes hframe (by omega) (by omega))
  obtain ⟨frameBuffer, hdiscard, hwf, hafter, hheaderBytes⟩ :=
    ChunkRingBuffer.discard_eq h.good.wellFormed
      (show 5 ≤ (a.worker.buffered fifo).length by omega)
  have hgood : AudioStreamWorker.Good fifo { a.worker with frameBuffer := frameBuffer } :=
    ⟨h.good.ready, hwf, hheaderBytes.trans h.good.header, h.good.streamType⟩
  have hpayload : frameBuffer.bytes fifo = frame.data ++ rest := by
    rw [hafter]
    exact congrArg (List.drop 5) hrest
  obtain ⟨a', ha', hgood', hbytes', hhandled, hdecoder', hround⟩ := processPayload_spec
    (a := { a with worker := { a.worker with frameBuffer := frameBuffer } }) throws hgood hdecoder
    hpayload
  replace hhandled : a'.handled = a.handled := hhandled
  refine ⟨{ a' with handled := a'.handled + 1 }, ?_, ⟨hgood', ?_⟩, ?_, hdecoder', ?_⟩
  · have hfive : ¬ (a.worker.buffered fifo).length < audioMessageHeaderBytes :=
      Nat.not_lt.mpr (show 5 ≤ (a.worker.buffered fifo).length by omega)
    have hall : ¬ (a.worker.buffered fifo).length < audioMessageHeaderBytes + frame.data.length :=
      Nat.not_lt.mpr (hlength ▸ hle)
    have hdiscard' : a.worker.frameBuffer.discard audioMessageHeaderBytes = some frameBuffer := hdiscard
    unfold processFrame
    simp only [h.good.byteLength, hfive, if_false, hheader, hall, hdiscard']
    rw [ha']
    rfl
  · change a'.worker.buffered fifo ++ later = _
    rw [hbytes', hhandled]
    exact hbytes
  · rw [hhandled]
  · have hkept : AudioStreamWorker.decoded { a.worker with frameBuffer := frameBuffer } =
        a.worker.decoded := rfl
    exact Round.of_worker hkept _ (hround _)

theorem processPayload_worker (throws : Nat → Bool) (hstate : a.state = .configured)
    (hthrows : throws a.worker.decoded.length = false) (streamType : UInt8) (payloadLen : Nat) :
    (a.processPayload throws streamType payloadLen).map worker =
      a.worker.processPayload streamType payloadLen := by
  unfold processPayload AudioStreamWorker.processPayload
  split
  · rfl
  · dsimp only
    split
    · rw [Option.map_map]
      rfl
    · rw [Option.map_map]
      congr 1
      funext result
      have hnot : ¬ (a.state ≠ .configured ∨ throws a.worker.decoded.length = true) := by
        simp [hstate, hthrows]
      dsimp only [Function.comp_apply, decodeFrame]
      rw [if_neg hnot]

/-- While nothing throws, the worker is the one whose decoder accepts everything. -/
theorem processFrame_worker (throws : Nat → Bool) (a : AudioDecoding R)
    (hstate : a.state = .configured) (hthrows : throws a.worker.decoded.length = false) :
    (a.processFrame throws).map worker = a.worker.processFrame := by
  unfold processFrame AudioStreamWorker.processFrame
  split
  · rfl
  · cases a.worker.peekAudioHeader with
    | none => rfl
    | some header =>
        dsimp only
        split
        · rfl
        · cases a.worker.frameBuffer.discard audioMessageHeaderBytes with
          | none => rfl
          | some frameBuffer =>
              dsimp only
              rw [Option.map_map]
              exact processPayload_worker (a := { a with
                worker := { a.worker with frameBuffer := frameBuffer } }) throws hstate hthrows _ _

end AudioDecoding

/-! ### Runs -/

structure AudioRun (R : RingBuffer Bytes) where
  decoding : AudioDecoding R
  busy : Bool
  later : Bytes

namespace AudioRun

/-- A decoding error closes the decoder and calls `resetDecoder`. -/
def next (throws : Nat → Bool) (s : AudioRun R) : MediaEvent → Option (AudioRun R)
  | .batch chunks =>
      if s.busy ∨ ¬ chunks.flatten <+: s.later then none
      else
        let received := AudioDecoding.ensureDecoder
          { s.decoding with
            worker := { s.decoding.worker with
              frameBuffer := pushChunks s.decoding.worker.frameBuffer chunks }
            thrown := false }
        some ⟨received, received.state ≠ .closed, s.later.drop chunks.flatten.length⟩
  | .round =>
      if !s.busy then none
      else
        match s.decoding.processFrame throws with
        | none => some { s with busy := false }
        | some a => some { s with decoding := a, busy := !a.thrown }
  | .error =>
      if s.busy ∨ !s.decoding.worker.decoder ∨ s.decoding.state ≠ .configured then none
      else some { s with decoding := AudioDecoding.resetDecoder { s.decoding with state := .closed } }

def system (R : RingBuffer Bytes) (throws : Nat → Bool) (frames : List AudioFrame)
    (allowed : AudioRun R → MediaEvent → Prop) : Labelled (AudioRun R) MediaEvent where
  init s := s = ⟨.start R, false, (frames.map submitAudioDataToStream).flatten⟩
  step s event t := allowed s event ∧ s.next throws event = some t

open AudioDecoding

variable {fifo : R.Fifo} {throws : Nat → Bool} {frames : List AudioFrame} {s t : AudioRun R}

/-- The next packet is not there as a whole. -/
def Waits (fifo : R.Fifo) (frames : List AudioFrame) (a : AudioDecoding R) : Prop :=
  ∀ frame ∈ frames[a.handled]?,
    (a.worker.buffered fifo).length < (submitAudioDataToStream frame).length

/-- A closed decoder gets no packets. -/
structure Inv (fifo : R.Fifo) (frames : List AudioFrame) (s : AudioRun R) : Prop where
  fits : s.decoding.Fits fifo frames s.later
  busy : s.busy = true → s.decoding.thrown = false ∧ s.decoding.worker.decoder = true
  waits : s.busy = false → s.decoding.thrown = false → s.decoding.state ≠ .closed →
    Waits fifo frames s.decoding
  fresh : s.decoding.worker.decoder = false → s.decoding.thrown = false ∧ s.decoding.state ≠ .closed

/-- What an event does. -/
inductive Does (fifo : R.Fifo) (throws : Nat → Bool) (frames : List AudioFrame) (s t : AudioRun R) :
    MediaEvent → Prop where
  | first (chunks : List Bytes) (hbusy : t.busy = true) (hdecoder : s.decoding.worker.decoder = false)
      (hcalls : t.decoding.calls = s.decoding.calls ++ [.configure .unconfigured])
      (hstate : t.decoding.state = .configured) (hhandled : t.decoding.handled = s.decoding.handled) :
      Does fifo throws frames s t (.batch chunks)
  | batch (chunks : List Bytes) (hdecoder : s.decoding.worker.decoder = true)
      (hbusy : t.busy = decide (t.decoding.state ≠ .closed))
      (hcalls : t.decoding.calls = s.decoding.calls) (hstate : t.decoding.state = s.decoding.state)
      (hhandled : t.decoding.handled = s.decoding.handled)
      (hlater : t.later = s.later.drop chunks.flatten.length) :
      Does fifo throws frames s t (.batch chunks)
  | done (hbusy : s.busy = true) (heq : t = { s with busy := false }) :
      Does fifo throws frames s t .round
  | round (frame : AudioFrame) (hbusy : s.busy = true)
      (hframe : frames[s.decoding.handled]? = some frame)
      (hwhole : (submitAudioDataToStream frame).length ≤ (s.decoding.worker.buffered fifo).length)
      (hround : Round throws frame s.decoding t.decoding)
      (hhandled : t.decoding.handled = s.decoding.handled + 1) (hlater : t.later = s.later) :
      Does fifo throws frames s t .round
  | error (hdecoder : s.decoding.worker.decoder = true) (hstate : t.decoding.state = .closed)
      (hcalls : t.decoding.calls = s.decoding.calls)
      (hhandled : t.decoding.handled = s.decoding.handled) (hlater : t.later = s.later)
      (hbusy : s.busy = false) : Does fifo throws frames s t .error

theorem Inv.start (fifo : R.Fifo) (frames : List AudioFrame) :
    Inv fifo frames ⟨.start R, false, (frames.map submitAudioDataToStream).flatten⟩ := by
  have hbytes : AudioStreamWorker.buffered fifo (AudioDecoding.start R).worker = [] :=
    ChunkRingBuffer.bytes_create fifo audioMessageHeaderBytes
  refine ⟨⟨⟨rfl, .create fifo audioMessageHeaderBytes, rfl, nofun⟩, ?_⟩, nofun, ?_,
    fun _ => ⟨rfl, nofun⟩⟩
  · rw [hbytes]
    rfl
  · intro _ _ _ frame _
    rw [hbytes, length_submitAudio, List.length_nil]
    omega

theorem next_batch (h : Inv fifo frames s) {chunks : List Bytes}
    (hnext : s.next throws (.batch chunks) = some t) :
    Inv fifo frames t ∧ Does fifo throws frames s t (.batch chunks) := by
  have hgood := h.fits.good
  obtain ⟨hwf, hbytes, hheader⟩ := pushChunks_spec hgood.wellFormed chunks
  unfold next at hnext
  dsimp only at hnext
  split at hnext
  · cases hnext
  · next hallowed =>
    obtain ⟨hbusy, hpart⟩ := not_or.mp hallowed
    obtain ⟨later, hlater⟩ := not_not.mp hpart
    have hdrop : s.later.drop chunks.flatten.length = later := by
      rw [← hlater, List.drop_left]
    rw [hdrop] at hnext
    have hstream : (pushChunks s.decoding.worker.frameBuffer chunks).bytes fifo ++ later =
        ((frames.drop s.decoding.handled).map submitAudioDataToStream).flatten := by
      rw [hbytes, List.append_assoc, hlater]
      exact h.fits.bytes
    unfold AudioDecoding.ensureDecoder at hnext
    by_cases hdecoder : s.decoding.worker.decoder = true
    · rw [if_pos hdecoder] at hnext
      cases hnext
      refine ⟨⟨⟨⟨hgood.ready, hwf, hheader.trans hgood.header, hgood.streamType⟩, hstream⟩, ?_, ?_,
        fun hnone => absurd hdecoder (Bool.eq_false_iff.mp hnone)⟩, ?_⟩
      · exact fun _ => ⟨rfl, hdecoder⟩
      · intro hidle _ hopen
        exact absurd hopen (of_decide_eq_false hidle)
      · exact .batch chunks hdecoder rfl rfl rfl rfl hdrop.symm
    · rw [if_neg hdecoder] at hnext
      cases hnext
      refine ⟨⟨⟨⟨hgood.ready, hwf, hheader.trans hgood.header, hgood.streamType⟩, hstream⟩, ?_, ?_,
        nofun⟩, ?_⟩
      · exact fun _ => ⟨rfl, rfl⟩
      · exact nofun
      · exact .first chunks rfl (Bool.eq_false_iff.mpr hdecoder) rfl rfl rfl

theorem next_round (h : Inv fifo frames s) (hnext : s.next throws .round = some t) :
    Inv fifo frames t ∧ Does fifo throws frames s t .round := by
  unfold next at hnext
  dsimp only at hnext
  split at hnext
  · cases hnext
  · next hbusy =>
    replace hbusy : s.busy = true := by simpa using hbusy
    obtain ⟨hthrown, hdecoder⟩ := h.busy hbusy
    by_cases hwaits : Waits fifo frames s.decoding
    · rw [processFrame_short throws h.fits hwaits] at hnext
      cases hnext
      exact ⟨⟨h.fits, nofun, fun _ _ _ => hwaits, h.fresh⟩, .done hbusy rfl⟩
    · simp only [Waits, not_forall, Nat.not_lt] at hwaits
      obtain ⟨frame, hframe, hle⟩ := hwaits
      obtain ⟨a', ha', hfits, hhandled, hdecoder', hround⟩ :=
        processFrame_whole throws h.fits hdecoder hframe hle
      rw [ha'] at hnext
      cases hnext
      refine ⟨⟨hfits, ?_, ?_, fun hnone => absurd hdecoder' (Bool.eq_false_iff.mp hnone)⟩,
        .round frame hbusy hframe hle hround hhandled rfl⟩
      · intro hgoes
        exact ⟨by simpa using hgoes, hdecoder'⟩
      · intro hstops hnot
        rw [hnot] at hstops
        cases hstops

theorem next_error (h : Inv fifo frames s) (hnext : s.next throws .error = some t) :
    Inv fifo frames t ∧ Does fifo throws frames s t .error := by
  unfold next at hnext
  dsimp only at hnext
  split at hnext
  · cases hnext
  · next hallowed =>
    cases hnext
    simp only [not_or, Bool.not_eq_true', Bool.not_eq_false, ne_eq, Decidable.not_not] at hallowed
    obtain ⟨hbusy, hdecoder, hstate⟩ := hallowed
    have hclosed (a : AudioDecoding R) : (resetDecoder { a with state := .closed }).state = .closed ∧
        (resetDecoder { a with state := .closed }).calls = a.calls := by
      simp [resetDecoder]
    refine ⟨⟨⟨⟨h.fits.good.ready, h.fits.good.wellFormed, h.fits.good.header,
      h.fits.good.streamType⟩, h.fits.bytes⟩, h.busy, ?_,
      fun hnone => absurd hdecoder (Bool.eq_false_iff.mp hnone)⟩, ?_⟩
    · exact fun _ _ hopen => absurd (hclosed s.decoding).1 hopen
    · exact .error hdecoder (hclosed s.decoding).1 (hclosed s.decoding).2 rfl rfl
        (Bool.eq_false_iff.mpr hbusy)

theorem next_spec (h : Inv fifo frames s) {event : MediaEvent}
    (hnext : s.next throws event = some t) :
    Inv fifo frames t ∧ Does fifo throws frames s t event := by
  cases event with
  | batch chunks => exact next_batch h hnext
  | round => exact next_round h hnext
  | error => exact next_error h hnext

end AudioRun

end Stratus.Frontend
