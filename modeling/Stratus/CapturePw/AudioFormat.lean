import Stratus.Common.RingBuffer

/-! `CapturePw.c` and `AudioEncode.c`: the audio format that they share, the ring of frames between
them, and the channel counts by which its items are written and read. -/
namespace Stratus.CapturePw

open Stratus.Lib Stratus.Common

/-- What `malloc` returns: `none` is `NULL`, and otherwise anything may be in the memory. -/
abbrev Memory := Option (Nat → UInt8)

def malloc (memory : Memory) (size : Nat) : Option Bytes :=
  memory.map fun content => (List.range size).map content

/-- `ring_buffer_init`. -/
def ringBufferInit (capacity itemSize : Nat) (memory : Memory) : Option RingBuffer :=
  if capacity = 0 ∨ itemSize = 0 then none
  else (malloc memory (RingBuffer.byteCount capacity itemSize)).map
    (RingBuffer.init capacity itemSize)

/-- `struct audio_context`. -/
structure AudioContext where
  sampleRate : Nat
  channels : Nat
  bufferCapacityFrames : Nat
  ringBuffer : Option RingBuffer
  formatReady : Bool

/-- The locals of `audio_encoder_main`. -/
structure AudioEncoder where
  sampleRate : Nat
  channels : Nat
  bufferCapacityFrames : Nat
  frameSize : Nat
  frameData : Bytes

inductive EncoderState where
  | waiting
  | running (encoder : AudioEncoder)
  | ended

/-- A frame as it was converted, with the channel count by which that was done. -/
structure Frame where
  channels : Nat
  bytes : Bytes

/-- A call of `ring_buffer_write`: the items that are to be read, the channel count of the capture,
and how many samples were converted. -/
structure WriteCall where
  items : Nat
  itemSize : Nat
  channels : Nat
  samples : Nat

/-- A frame that the encoder has read, the channel count by which it goes on, and the bytes which it
takes for the frame. -/
structure Taken where
  frame : Frame
  channels : Nat
  bytes : Bytes

/-- The two threads.  The last four fields are history: the frames that are in the ring, the calls
of `ring_buffer_write`, the frames that were read, and whether memory was accessed outside of an
array. -/
structure Audio where
  context : AudioContext
  convertBuffer : Bytes
  encoder : EncoderState
  unread : List Frame
  writes : List WriteCall
  taken : List Taken
  overrun : Bool

/-- A buffer of PipeWire.  Its samples are the bits of floating-point numbers. -/
structure Chunk where
  size : UInt32
  samples : List UInt32
  complete : samples.length = size.toNat / 4

/-- A callback of PipeWire or a step of the encoder, with what the calls in it return. -/
inductive AudioStep where
  | paramChanged (format : Option (UInt32 × UInt32)) (memory : Memory)
  | process (clientConnected : Bool) (chunk : Option Chunk) (realloc : Bool)
  | close
  | encoderStart (memory : Memory)
  | encoderRead

namespace Audio

/-! `floatToS16` is `capture_pw_float_to_s16`. -/

variable (floatToS16 : UInt32 → UInt16)

/-- The format is published with the mutex held. -/
def publish (s : Audio) (sampleRate channels bufferCapacityFrames : Nat) (ring : RingBuffer) : Audio :=
  { s with
    context :=
      { sampleRate := sampleRate
        channels := channels
        bufferCapacityFrames := bufferCapacityFrames
        ringBuffer := some ring
        formatReady := true } }

/-- `on_stream_param_changed`; the format is `none` when it is cleared or is not raw audio. -/
def onStreamParamChanged (s : Audio) (format : Option (UInt32 × UInt32)) (memory : Memory) : Audio :=
  match format with
  | none => s
  | some (rate, channels) =>
      match s.context.ringBuffer with
      | some ring => s.publish rate.toNat channels.toNat s.context.bufferCapacityFrames ring
      | none =>
          let bufferCapacityFrames := if rate.toNat / 2 = 0 then 2048 else rate.toNat / 2
          match ringBufferInit bufferCapacityFrames (channels.toNat * 2) memory with
          | none => s
          | some ring => s.publish rate.toNat channels.toNat bufferCapacityFrames ring

/-- An `int16_t` in memory. -/
def sampleBytes (sample : UInt16) : Bytes := [sample.toUInt8, (sample >>> 8).toUInt8]

/-- The loop that converts the samples. -/
def convert (samples : List UInt32) : Bytes := samples.flatMap fun sample => sampleBytes (floatToS16 sample)

/-- The frames among the converted samples. -/
def framesOf (channels nFrames : Nat) (converted : Bytes) : List Frame :=
  (cut (channels * 2) nFrames converted).map (Frame.mk channels)

/-- `ring_buffer_write` in `on_process`. -/
def writeFrames (s : Audio) (ring : RingBuffer) (nFrames : Nat) (converted : Bytes) : Audio :=
  let call : WriteCall := ⟨nFrames, ring.itemSize, s.context.channels, converted.length / 2⟩
  let s := { s with
    convertBuffer := converted ++ s.convertBuffer.drop converted.length
    writes := s.writes ++ [call] }
  match RingBuffer.write (some s.convertBuffer) nFrames ring with
  | none => { s with overrun := true }
  | some (_, ring') =>
      { s with
        context := { s.context with ringBuffer := some ring' }
        unread :=
          if ring.closed then s.unread
          else RingBuffer.newest ring.capacity
            (s.unread ++ framesOf s.context.channels nFrames converted) }

/-- `on_process`. -/
def onProcess (s : Audio) (clientConnected : Bool) (chunk : Option Chunk) (realloc : Bool) : Audio :=
  match chunk, s.context.ringBuffer with
  | some chunk, some ring =>
      let channels := s.context.channels
      let nFrames := chunk.size.toNat / (4 * channels)
      let totalSamples := nFrames * channels % 2 ^ 32
      if !clientConnected || channels = 0 || nFrames = 0 then s
      else if s.convertBuffer.length < 2 * totalSamples && !realloc then s
      else s.writeFrames ring nFrames (convert floatToS16 (chunk.samples.take totalSamples))
  | _, _ => s

/-- `ring_buffer_close`. -/
def close (s : Audio) : Audio :=
  { s with
    context :=
      { s.context with
        ringBuffer := s.context.ringBuffer.map fun ring => { ring with closed := true } } }

/-- `audio_encoder_compute_frame_size`. -/
def computeFrameSize (sampleRate channels : Nat) : Option Nat :=
  if sampleRate = 0 ∨ channels = 0 ∨ sampleRate * 20 % 1000 ≠ 0 then none
  else some (sampleRate * 20 / 1000)

/-- `audio_encoder_main` up to its loop, after it has waited for the format. -/
def encoderStart (s : Audio) (memory : Memory) : Audio :=
  let c := s.context
  if c.ringBuffer.isNone || c.bufferCapacityFrames = 0 then { s with encoder := .ended }
  else
    match computeFrameSize c.sampleRate c.channels,
      malloc memory (RingBuffer.byteCount c.bufferCapacityFrames (c.channels * 2)) with
    | some frameSize, some frameData =>
        { s with
          encoder := .running ⟨c.sampleRate, c.channels, c.bufferCapacityFrames, frameSize, frameData⟩ }
    | _, _ => { s with encoder := .ended }

/-- The frames read are cut out of the array by the encoder's own channel count. -/
def takeFrames (s : Audio) (encoder : AudioEncoder) (framesRead : Nat) (frameData : Bytes) : Audio :=
  { s with
    encoder := .running { encoder with frameData := frameData }
    unread := s.unread.drop framesRead
    taken := s.taken ++
      List.zipWith (fun frame => Taken.mk frame encoder.channels) (s.unread.take framesRead)
        (cut (encoder.channels * 2) framesRead frameData) }

/-- A turn of the encoder's loop; `none` when it waits. -/
def encoderRead (s : Audio) (encoder : AudioEncoder) (ring : RingBuffer) : Option Audio :=
  match RingBuffer.waitRead (some encoder.frameData) encoder.bufferCapacityFrames ring with
  | none => some { s with overrun := true }
  | some (none, _) => none
  | some (some (framesRead, frameData), ring') =>
      let s := { s with context := { s.context with ringBuffer := some ring' } }
      if framesRead = 0 then some { s with encoder := .ended }
      else some (s.takeFrames encoder framesRead (frameData.getD []))

/-- Nothing is said about what comes after an access outside of an array. -/
def next (s : Audio) (step : AudioStep) : Option Audio :=
  if s.overrun then none
  else
    match step with
    | .paramChanged format memory => some (s.onStreamParamChanged format memory)
    | .process clientConnected chunk realloc =>
        some (s.onProcess floatToS16 clientConnected chunk realloc)
    | .close => some s.close
    | .encoderStart memory =>
        match s.encoder with
        | .waiting => if s.context.formatReady then some (s.encoderStart memory) else none
        | _ => none
    | .encoderRead =>
        match s.encoder, s.context.ringBuffer with
        | .running encoder, some ring => s.encoderRead encoder ring
        | _, _ => none

def start : Audio where
  context := ⟨0, 0, 0, none, false⟩
  convertBuffer := []
  encoder := .waiting
  unread := []
  writes := []
  taken := []
  overrun := false

def system (allowed : Audio → AudioStep → Prop) : Labelled Audio AudioStep where
  init s := s = start
  step s step t := allowed s step ∧ s.next floatToS16 step = some t

end Audio

/-- The ring has the published format, each write reads the samples that were converted for it, and
each frame is read as the frame that was written, by the same channel count. -/
structure Audio.Consistent (s : Audio) : Prop where
  format : ∀ ring ∈ s.context.ringBuffer,
    ring.itemSize = s.context.channels * 2 ∧ ring.capacity = s.context.bufferCapacityFrames
  writes : ∀ call ∈ s.writes, call.items * call.itemSize = call.items * call.channels * 2 ∧
    call.samples = call.items * call.channels
  taken : ∀ t ∈ s.taken, t.channels = t.frame.channels ∧ t.bytes = t.frame.bytes
  inBounds : s.overrun = false

/-- A format that is negotiated again has the channel count with which the ring was made. -/
def KeepsChannels (s : Audio) : AudioStep → Prop
  | .paramChanged (some (_, channels)) _ =>
      ∀ ring ∈ s.context.ringBuffer, ring.itemSize = channels.toNat * 2
  | _ => True

instance (s : Audio) : (step : AudioStep) → Decidable (KeepsChannels s step)
  | .paramChanged (some (_, channels)) _ =>
      inferInstanceAs (Decidable (∀ ring ∈ s.context.ringBuffer, ring.itemSize = channels.toNat * 2))
  | .paramChanged none _ => .isTrue trivial
  | .process _ _ _ => .isTrue trivial
  | .close => .isTrue trivial
  | .encoderStart _ => .isTrue trivial
  | .encoderRead => .isTrue trivial

namespace Audio

variable {floatToS16 : UInt32 → UInt16} {s t : Audio} {ring : RingBuffer}

/-- The ring has the format that is published, and keeps the frames that were written to it. -/
structure Keeps (s : Audio) (ring : RingBuffer) : Prop where
  represents : ring.Represents s.context.bufferCapacityFrames (s.context.channels * 2)
    ⟨s.unread.map Frame.bytes, ring.closed⟩
  channels : ∀ frame ∈ s.unread, frame.channels = s.context.channels

/-- The encoder goes by the format that is published. -/
structure Follows (s : Audio) (encoder : AudioEncoder) : Prop where
  ring : s.context.ringBuffer ≠ none
  channels : encoder.channels = s.context.channels
  capacity : encoder.bufferCapacityFrames = s.context.bufferCapacityFrames
  frameData : encoder.frameData.length = s.context.channels * 2 * s.context.bufferCapacityFrames

/-- The invariant. -/
structure Inv (s : Audio) : Prop where
  consistent : s.Consistent
  keeps : ∀ ring ∈ s.context.ringBuffer, s.Keeps ring
  nothing : s.context.ringBuffer = none → s.unread = []
  follows : ∀ encoder, s.encoder = .running encoder → s.Follows encoder

theorem Inv.start : start.Inv where
  consistent := ⟨nofun, nofun, nofun, rfl⟩
  keeps := nofun
  nothing _ := rfl
  follows := nofun

theorem Keeps.format (h : s.Keeps ring) :
    ring.itemSize = s.context.channels * 2 ∧ ring.capacity = s.context.bufferCapacityFrames :=
  ⟨h.represents.2.1, h.represents.1⟩

/-! ### `on_stream_param_changed` -/

theorem ringBufferInit_represents {capacity itemSize : Nat} {memory : Memory}
    (hcapacity : capacity ≤ 2 ^ 31) (hsize : itemSize < 2 ^ 33)
    (h : ringBufferInit capacity itemSize memory = some ring) :
    ring.Represents capacity itemSize ⟨[], false⟩ ∧ ring.closed = false := by
  unfold ringBufferInit at h
  split at h
  · cases h
  · next hpos =>
    obtain ⟨buffer, hbuffer, rfl⟩ := Option.map_eq_some_iff.mp h
    obtain ⟨content, -, rfl⟩ := Option.map_eq_some_iff.mp hbuffer
    refine ⟨RingBuffer.init_represents (by omega) hcapacity ?_ ?_, rfl⟩
    · calc itemSize * capacity ≤ itemSize * 2 ^ 31 := Nat.mul_le_mul_left _ hcapacity
        _ < 2 ^ 33 * 2 ^ 31 := Nat.mul_lt_mul_of_pos_right hsize (by decide)
    · rw [List.length_map, List.length_range]

theorem Inv.onStreamParamChanged (h : s.Inv) {format : Option (UInt32 × UInt32)} {memory : Memory}
    (hkeeps : KeepsChannels s (.paramChanged format memory)) :
    (s.onStreamParamChanged format memory).Inv := by
  unfold Audio.onStreamParamChanged
  cases format with
  | none => exact h
  | some format =>
      obtain ⟨rate, channels⟩ := format
      dsimp only
      cases hring : s.context.ringBuffer with
      | some ring =>
          -- the published channel count stays as it was
          have hsame : channels.toNat = s.context.channels := by
            have hitem := hkeeps ring hring
            rw [(h.keeps ring hring).format.1] at hitem
            omega
          have hkept := h.keeps ring hring
          refine ⟨⟨?_, h.consistent.writes, h.consistent.taken, h.consistent.inBounds⟩, ?_, nofun, ?_⟩
          · rintro _ ⟨⟩
            exact hsame ▸ hkept.format
          · rintro _ ⟨⟩
            exact ⟨hsame ▸ hkept.represents, hsame ▸ hkept.channels⟩
          · intro encoder hencoder
            have hfollows := h.follows encoder hencoder
            exact ⟨nofun, hsame ▸ hfollows.channels, hfollows.capacity, hsame ▸ hfollows.frameData⟩
      | none =>
          dsimp only
          cases hinit : ringBufferInit (if rate.toNat / 2 = 0 then 2048 else rate.toNat / 2)
            (channels.toNat * 2) memory with
          | none => exact h
          | some ring =>
              have hrate := rate.toNat_lt
              have hchannels := channels.toNat_lt
              obtain ⟨hrepresents, hopen⟩ :=
                ringBufferInit_represents (by split <;> omega) (by omega) hinit
              have hunread := h.nothing hring
              refine ⟨⟨?_, h.consistent.writes, h.consistent.taken, h.consistent.inBounds⟩, ?_, nofun,
                ?_⟩
              · rintro _ ⟨⟩
                exact ⟨hrepresents.2.1, hrepresents.1⟩
              · rintro _ ⟨⟩
                refine ⟨?_, ?_⟩
                · change ring.Represents _ _ ⟨s.unread.map Frame.bytes, ring.closed⟩
                  rw [hunread, hopen]
                  exact hrepresents
                · change ∀ frame ∈ s.unread, _
                  rw [hunread]
                  exact nofun
              · intro encoder hencoder
                exact absurd hring (h.follows encoder hencoder).ring

/-! ### `on_process` -/

theorem length_convert (samples : List UInt32) :
    (convert floatToS16 samples).length = 2 * samples.length := by
  induction samples with
  | nil => rfl
  | cons sample samples ih =>
      rw [convert, List.flatMap_cons, List.length_append, ← convert, ih, List.length_cons]
      change 2 + _ = _
      omega

theorem framesOf_spec {channels nFrames : Nat} {converted : Bytes}
    (h : converted.length = channels * 2 * nFrames) :
    ((framesOf channels nFrames converted).map Frame.bytes).flatten = converted ∧
      (framesOf channels nFrames converted).length = nFrames ∧
      (∀ item ∈ (framesOf channels nFrames converted).map Frame.bytes, item.length = channels * 2) ∧
      ∀ frame ∈ framesOf channels nFrames converted, frame.channels = channels := by
  have hbytes : (framesOf channels nFrames converted).map Frame.bytes =
      cut (channels * 2) nFrames converted := by
    rw [framesOf, List.map_map]
    exact List.map_id _
  rw [hbytes]
  refine ⟨(flatten_cut h).1, ?_, (flatten_cut h).2, ?_⟩
  · rw [framesOf, List.length_map, length_cut]
  · intro frame hmem
    obtain ⟨bytes, -, rfl⟩ := List.mem_map.mp hmem
    rfl

theorem map_newest {capacity : Nat} (frames : List Frame) :
    (RingBuffer.newest capacity frames).map Frame.bytes =
      RingBuffer.newest capacity (frames.map Frame.bytes) := by
  rw [RingBuffer.newest, RingBuffer.newest, List.map_drop, List.length_map]

theorem mem_newest {capacity : Nat} {frames : List Frame} {frame : Frame}
    (h : frame ∈ RingBuffer.newest capacity frames) : frame ∈ frames :=
  List.mem_of_mem_drop h

/-- The converted samples are written as they should be, or not at all. -/
theorem Keeps.write (h : s.Keeps ring) {nFrames : Nat} {converted : Bytes} (more : Bytes)
    (hpos : 0 < nFrames) (hlength : converted.length = s.context.channels * 2 * nFrames)
    (hsmall : converted.length < 2 ^ 32) (hchannels : 0 < s.context.channels) :
    ∃ n ring', RingBuffer.write (some (converted ++ more)) nFrames ring = some (n, ring') ∧
      ring'.closed = ring.closed ∧
      ring'.Represents s.context.bufferCapacityFrames (s.context.channels * 2)
        ⟨(if ring.closed then s.unread
          else RingBuffer.newest ring.capacity
            (s.unread ++ framesOf s.context.channels nFrames converted)).map Frame.bytes,
          ring.closed⟩ := by
  cases hclosed : ring.closed with
  | true =>
      have hkept := h.represents
      rw [hclosed] at hkept
      exact ⟨0, ring, RingBuffer.write_nothing (.inr hclosed), hclosed, hkept⟩
  | false =>
      obtain ⟨hflatten, hcount, hsized, -⟩ := framesOf_spec hlength
      have hframes : nFrames < 2 ^ 32 := by
        refine lt_of_le_of_lt ?_ hsmall
        rw [hlength]
        exact Nat.le_mul_of_pos_left _ (by omega)
      have hrepresents := h.represents
      rw [hclosed] at hrepresents
      obtain ⟨ring', hwrite, hafter⟩ := RingBuffer.call_write hrepresents rfl
        (by rw [List.length_map, hcount]; exact hpos) hsized
        (by rw [List.length_map, hcount]; exact hframes)
        (by rw [List.length_map, hcount, ← hlength]; omega)
      rw [hflatten, List.length_map, hcount] at hwrite
      refine ⟨_, ring', RingBuffer.write_append more ring _ hwrite, hafter.2.2.1, ?_⟩
      rw [if_neg Bool.false_ne_true, map_newest, List.map_append, h.format.2]
      exact hafter

theorem Inv.writeFrames (h : s.Inv) (hring : s.context.ringBuffer = some ring) {nFrames : Nat}
    {converted : Bytes} (hpos : 0 < nFrames) (hchannels : 0 < s.context.channels)
    (hlength : converted.length = s.context.channels * 2 * nFrames)
    (hsmall : converted.length < 2 ^ 32) : (s.writeFrames ring nFrames converted).Inv := by
  have hkeeps := h.keeps ring hring
  obtain ⟨n, ring', hwrite, hclosed, hrepresents⟩ :=
    hkeeps.write (s.convertBuffer.drop converted.length) hpos hlength hsmall hchannels
  unfold Audio.writeFrames
  dsimp only
  rw [hwrite]
  refine ⟨⟨?_, ?_, h.consistent.taken, h.consistent.inBounds⟩, ?_, nofun, ?_⟩
  · rintro _ ⟨⟩
    exact ⟨hrepresents.2.1, hrepresents.1⟩
  · intro call hcall
    obtain hcall | hcall := List.mem_append.mp hcall
    · exact h.consistent.writes call hcall
    · obtain rfl := List.mem_singleton.mp hcall
      have hhalf : converted.length / 2 = s.context.channels * nFrames := by
        rw [hlength, Nat.mul_right_comm]
        exact Nat.mul_div_cancel _ (by decide)
      refine ⟨?_, hhalf.trans (Nat.mul_comm _ _)⟩
      change nFrames * ring.itemSize = nFrames * s.context.channels * 2
      rw [hkeeps.format.1, Nat.mul_assoc]
  · rintro _ ⟨⟩
    refine ⟨hclosed ▸ hrepresents, fun frame hmem => ?_⟩
    dsimp only at hmem
    split at hmem
    · exact hkeeps.channels frame hmem
    · obtain hold | hnew := List.mem_append.mp (mem_newest hmem)
      · exact hkeeps.channels frame hold
      · exact (framesOf_spec hlength).2.2.2 frame hnew
  · intro encoder hencoder
    have hfollows := h.follows encoder hencoder
    exact ⟨nofun, hfollows.channels, hfollows.capacity, hfollows.frameData⟩

theorem Inv.onProcess (h : s.Inv) (clientConnected : Bool) (chunk : Option Chunk) (realloc : Bool) :
    (s.onProcess floatToS16 clientConnected chunk realloc).Inv := by
  unfold Audio.onProcess
  cases chunk with
  | none => exact h
  | some chunk =>
      cases hring : s.context.ringBuffer with
      | none => exact h
      | some ring =>
          dsimp only
          split
          · exact h
          · next hready =>
            split
            · exact h
            · simp only [Bool.or_eq_true, decide_eq_true_eq, not_or] at hready
              obtain ⟨⟨-, hchannels⟩, hpos⟩ := hready
              have hsize := chunk.size.toNat_lt
              -- the product is at most a quarter of the size, and does not wrap around
              have hquarter : chunk.size.toNat / (4 * s.context.channels) * s.context.channels ≤
                  chunk.size.toNat / 4 := by
                rw [← Nat.div_div_eq_div_mul]
                exact Nat.div_mul_le_self _ _
              have htotal : chunk.size.toNat / (4 * s.context.channels) * s.context.channels % 2 ^ 32 =
                  chunk.size.toNat / (4 * s.context.channels) * s.context.channels :=
                Nat.mod_eq_of_lt (by omega)
              have hlength : (convert floatToS16 (chunk.samples.take
                  (chunk.size.toNat / (4 * s.context.channels) * s.context.channels % 2 ^ 32))).length =
                  2 * (chunk.size.toNat / (4 * s.context.channels) * s.context.channels) := by
                rw [length_convert, List.length_take, chunk.complete, htotal, Nat.min_eq_left hquarter]
              refine h.writeFrames hring (Nat.pos_of_ne_zero hpos) (Nat.pos_of_ne_zero hchannels) ?_
                (by rw [hlength]; omega)
              rw [hlength, Nat.mul_comm _ s.context.channels, ← Nat.mul_assoc,
                Nat.mul_comm 2 s.context.channels]

/-! ### The encoder, and the end of the capture -/

theorem Inv.close (h : s.Inv) : s.close.Inv := by
  refine ⟨⟨?_, h.consistent.writes, h.consistent.taken, h.consistent.inBounds⟩, ?_, ?_, ?_⟩
  · intro ring' hring'
    obtain ⟨ring, hring, rfl⟩ := Option.map_eq_some_iff.mp hring'
    exact (h.keeps ring hring).format
  · intro ring' hring'
    obtain ⟨ring, hring, rfl⟩ := Option.map_eq_some_iff.mp hring'
    obtain ⟨⟨hcapacity, hsize, -, cells, hholds, hunread⟩, hchannels⟩ := h.keeps ring hring
    exact ⟨⟨hcapacity, hsize, rfl, cells, { hholds with }, hunread⟩, hchannels⟩
  · exact fun hnone => h.nothing (Option.map_eq_none_iff.mp hnone)
  · intro encoder hencoder
    have hfollows := h.follows encoder hencoder
    exact ⟨mt Option.map_eq_none_iff.mp hfollows.ring, hfollows.channels, hfollows.capacity,
      hfollows.frameData⟩

theorem Inv.setEncoder (h : s.Inv) {state : EncoderState}
    (hfollows : ∀ encoder, state = .running encoder → s.Follows encoder) :
    ({ s with encoder := state } : Audio).Inv where
  consistent := { h.consistent with }
  keeps ring hring := { h.keeps ring hring with }
  nothing := h.nothing
  follows encoder hencoder := { hfollows encoder hencoder with }

theorem Inv.encoderStart (h : s.Inv) (memory : Memory) : (s.encoderStart memory).Inv := by
  unfold Audio.encoderStart
  dsimp only
  split
  · exact h.setEncoder nofun
  · next hready =>
    simp only [Bool.or_eq_true, Option.isNone_iff_eq_none, decide_eq_true_eq, not_or] at hready
    split
    · next frameSize frameData hframe hmemory =>
      refine h.setEncoder ?_
      rintro _ ⟨⟩
      refine ⟨hready.1, rfl, rfl, ?_⟩
      obtain ⟨content, -, rfl⟩ := Option.map_eq_some_iff.mp hmemory
      obtain ⟨ring, hring⟩ := Option.ne_none_iff_exists'.mp hready.1
      obtain ⟨hcapacity, hsize, -, cells, hholds, -⟩ := (h.keeps ring hring).represents
      have hfits := hholds.size
      rw [hcapacity, hsize] at hfits
      rw [List.length_map, List.length_range, RingBuffer.byteCount_eq hfits]
    · exact h.setEncoder nofun

theorem Keeps.sized (h : s.Keeps ring) : (s.unread.map Frame.bytes).length ≤
    s.context.bufferCapacityFrames ∧
      ∀ item ∈ s.unread.map Frame.bytes, item.length = s.context.channels * 2 := by
  obtain ⟨hcapacity, hsize, -, cells, hholds, hunread⟩ := h.represents
  dsimp only at hunread
  rw [← hunread, RingBuffer.length_unread hholds, ← hcapacity, ← hsize]
  refine ⟨hholds.available, fun item hmem => hholds.sized item ?_⟩
  exact List.mem_rotate.mp (List.mem_of_mem_take hmem)

/-- A read that does not wait takes all frames, one after the other. -/
theorem Keeps.read (h : s.Keeps ring) {encoder : AudioEncoder} (hfollows : s.Follows encoder)
    (hready : ¬ (s.unread = [] ∧ ring.closed = false)) :
    ∃ ring' more, RingBuffer.waitRead (some encoder.frameData) encoder.bufferCapacityFrames ring =
        some (some (s.unread.length, some ((s.unread.map Frame.bytes).flatten ++ more)), ring') ∧
      ((s.unread.map Frame.bytes).flatten ++ more).length = encoder.frameData.length ∧
      ring'.closed = ring.closed ∧
      ring'.Represents s.context.bufferCapacityFrames (s.context.channels * 2) ⟨[], ring.closed⟩ := by
  obtain ⟨hfits, hsized⟩ := h.sized
  obtain ⟨hcapacity, hsize, -, cells, hholds, -⟩ := h.represents
  have hpos := hholds.positive
  have hbounded := hholds.bounded
  rw [hcapacity] at hpos hbounded
  have hdst : s.context.channels * 2 * s.context.bufferCapacityFrames ≤ encoder.frameData.length :=
    hfollows.frameData.ge
  obtain ⟨ring', hread, hafter⟩ := RingBuffer.call_waitRead h.represents hpos (by omega) hdst
    (by rwa [List.map_eq_nil_iff])
  dsimp only at hread hafter
  rw [List.take_of_length_le hfits, Nat.min_eq_right hfits, List.length_map] at hread
  rw [List.drop_eq_nil_of_le hfits] at hafter
  have hlength : 0 + (s.unread.map Frame.bytes).flatten.length ≤ encoder.frameData.length := by
    rw [Nat.zero_add, length_flatten_mul hsized, hfollows.frameData]
    exact Nat.mul_le_mul_left _ hfits
  refine ⟨ring', encoder.frameData.drop (0 + (s.unread.map Frame.bytes).flatten.length), ?_,
    length_splice hlength, hafter.2.2.1, hafter⟩
  rw [hfollows.capacity, hread]
  rfl

theorem Inv.encoderRead {encoder : AudioEncoder} (h : s.Inv)
    (hencoder : s.encoder = .running encoder) (hring : s.context.ringBuffer = some ring)
    (hstep : s.encoderRead encoder ring = some t) : t.Inv := by
  have hkeeps := h.keeps ring hring
  have hfollows := h.follows encoder hencoder
  unfold Audio.encoderRead at hstep
  by_cases hwaits : s.unread = [] ∧ ring.closed = false
  · obtain ⟨hempty, hopen⟩ := hwaits
    obtain ⟨hcapacity, -, -, cells, hholds, hunread⟩ := hkeeps.represents
    have hnone : ring.itemsAvailable = 0 := by
      rw [← RingBuffer.length_unread hholds, hunread, hempty]
      rfl
    have hpositive : encoder.bufferCapacityFrames ≠ 0 := by
      rw [hfollows.capacity, ← hcapacity]
      exact hholds.positive.ne'
    rw [RingBuffer.waitRead_waits hpositive hnone hopen] at hstep
    cases hstep
  · obtain ⟨ring', more, hread, hlength, hclosed, hafter⟩ := hkeeps.read hfollows hwaits
    rw [hread] at hstep
    dsimp only at hstep
    split at hstep
    · next hzero =>
      obtain rfl := Option.some.inj hstep
      refine ⟨⟨?_, h.consistent.writes, h.consistent.taken, h.consistent.inBounds⟩, ?_, nofun, nofun⟩
      · rintro _ ⟨⟩
        exact ⟨hafter.2.1, hafter.1⟩
      · rintro _ ⟨⟩
        have hempty : s.unread = [] := List.length_eq_zero_iff.mp hzero
        refine ⟨?_, hkeeps.channels⟩
        change ring'.Represents _ _ ⟨s.unread.map Frame.bytes, ring'.closed⟩
        rw [hempty, hclosed]
        exact hafter
    · obtain rfl := Option.some.inj hstep
      have hdrop : s.unread.drop s.unread.length = [] := List.drop_length
      -- the array begins with the frames as they were written
      have hcut : cut (encoder.channels * 2) s.unread.length
          ((s.unread.map Frame.bytes).flatten ++ more) = s.unread.map Frame.bytes := by
        have := cut_flatten hkeeps.sized.2 more
        rwa [List.length_map, ← hfollows.channels] at this
      refine ⟨⟨?_, h.consistent.writes, ?_, h.consistent.inBounds⟩, ?_, nofun, ?_⟩
      · rintro _ ⟨⟩
        exact ⟨hafter.2.1, hafter.1⟩
      · intro taken hmem
        obtain hmem | hmem := List.mem_append.mp hmem
        · exact h.consistent.taken taken hmem
        · dsimp only [Option.getD_some] at hmem
          rw [hcut, List.take_length, List.zipWith_map_right, List.zipWith_self] at hmem
          obtain ⟨frame, hframe, rfl⟩ := List.mem_map.mp hmem
          exact ⟨hfollows.channels.trans (hkeeps.channels frame hframe).symm, rfl⟩
      · rintro _ ⟨⟩
        refine ⟨?_, ?_⟩
        · change ring'.Represents _ _ ⟨(s.unread.drop s.unread.length).map Frame.bytes, ring'.closed⟩
          rw [hdrop, hclosed]
          exact hafter
        · change ∀ frame ∈ s.unread.drop s.unread.length, _
          rw [hdrop]
          exact nofun
      · rintro _ ⟨⟩
        exact ⟨nofun, hfollows.channels, hfollows.capacity, hlength.trans hfollows.frameData⟩

/-! ### Runs -/

/-- What one step of each kind is. -/
theorem next_cases {step : AudioStep} (hstep : s.next floatToS16 step = some t) :
    (∃ format memory, step = .paramChanged format memory ∧ t = s.onStreamParamChanged format memory) ∨
    (∃ clientConnected chunk realloc, step = .process clientConnected chunk realloc ∧
      t = s.onProcess floatToS16 clientConnected chunk realloc) ∨
    (step = .close ∧ t = s.close) ∨
    (∃ memory, step = .encoderStart memory ∧ t = s.encoderStart memory) ∨
    (∃ encoder ring, step = .encoderRead ∧ s.encoder = .running encoder ∧
      s.context.ringBuffer = some ring ∧ s.encoderRead encoder ring = some t) := by
  unfold Audio.next at hstep
  obtain ⟨-, hstep⟩ := Option.ite_none_left_eq_some.mp hstep
  cases step with
  | paramChanged format memory => exact .inl ⟨format, memory, rfl, (Option.some.inj hstep).symm⟩
  | process clientConnected chunk realloc =>
      exact .inr (.inl ⟨clientConnected, chunk, realloc, rfl, (Option.some.inj hstep).symm⟩)
  | close => exact .inr (.inr (.inl ⟨rfl, (Option.some.inj hstep).symm⟩))
  | encoderStart memory =>
      dsimp only at hstep
      split at hstep
      · obtain ⟨-, hstep⟩ := Option.ite_none_right_eq_some.mp hstep
        exact .inr (.inr (.inr (.inl ⟨memory, rfl, (Option.some.inj hstep).symm⟩)))
      · cases hstep
  | encoderRead =>
      dsimp only at hstep
      split at hstep
      · next encoder ring hencoder hring =>
        exact .inr (.inr (.inr (.inr ⟨encoder, ring, rfl, hencoder, hring, hstep⟩)))
      · cases hstep

theorem Inv.next (h : s.Inv) {step : AudioStep} (hkeeps : KeepsChannels s step)
    (hstep : s.next floatToS16 step = some t) : t.Inv := by
  rcases next_cases hstep with ⟨format, memory, rfl, rfl⟩ |
    ⟨clientConnected, chunk, realloc, -, rfl⟩ | ⟨-, rfl⟩ | ⟨memory, -, rfl⟩ |
    ⟨encoder, ring, -, hencoder, hring, hread⟩
  · exact h.onStreamParamChanged hkeeps
  · exact h.onProcess clientConnected chunk realloc
  · exact h.close
  · exact h.encoderStart memory
  · exact h.encoderRead hencoder hring hread

/-- A format with another channel count is published while the ring stays as it is. -/
theorem not_consistent {step : AudioStep} (hnot : ¬ KeepsChannels s step)
    (hstep : s.next floatToS16 step = some t) : ¬ t.Consistent := by
  intro hconsistent
  cases step with
  | paramChanged format memory =>
      cases format with
      | none => exact hnot trivial
      | some format =>
          refine hnot fun ring hring => ?_
          obtain ⟨-, hstep⟩ := Option.ite_none_left_eq_some.mp hstep
          obtain rfl := Option.some.inj hstep
          have hformat := (hconsistent.format ring (by
            rw [Audio.onStreamParamChanged, hring]
            rfl)).1
          rwa [Audio.onStreamParamChanged, hring] at hformat
  | process _ _ _ => exact hnot trivial
  | close => exact hnot trivial
  | encoderStart _ => exact hnot trivial
  | encoderRead => exact hnot trivial

end Audio

/-- The format is consistent in every run in which no other channel count is negotiated once the
ring is made, and where one is, it ceases to be so. -/
theorem format_consistent (floatToS16 : UInt32 → UInt16) (trace : List AudioStep) (s : Audio)
    (hs : (Audio.system floatToS16 KeepsChannels).Run trace s) :
    s.Consistent ∧
      ∀ step t, s.next floatToS16 step = some t → (t.Consistent ↔ KeepsChannels s step) := by
  have h : s.Inv := by
    refine hs.always Audio.Inv ?_ ?_
    · rintro _ rfl
      exact .start
    · rintro s step t h ⟨hkeeps, hstep⟩
      exact h.next hkeeps hstep
  refine ⟨h.consistent, fun step t hstep => ⟨fun ht => ?_, fun hkeeps => ?_⟩⟩
  rotate_left
  · exact (h.next hkeeps hstep).consistent
  by_contra hnot
  exact Audio.not_consistent hnot hstep ht

/-- Two samples in eight bytes. -/
def twoSamples : Chunk := ⟨8, [0, 0], by decide⟩

def zeroed : Memory := some fun _ => 0

theorem format_consistent_mono :
    ∃ s, (Audio.system (fun _ => 0) KeepsChannels).Run
        [.paramChanged (some (50, 1)) zeroed, .encoderStart zeroed, .process true (some twoSamples) true,
          .paramChanged (some (100, 1)) none, .encoderRead] s ∧
      s.taken.length = 2 ∧ s.Consistent := by
  have hend : ∃ s, (Audio.system (fun _ => 0) KeepsChannels).Run
      [.paramChanged (some (50, 1)) zeroed, .encoderStart zeroed, .process true (some twoSamples) true,
        .paramChanged (some (100, 1)) none, .encoderRead] s ∧ s.taken.length = 2 :=
    Labelled.exists_run (by decide)
  obtain ⟨s, hrun, htaken⟩ := hend
  exact ⟨s, hrun, htaken, (format_consistent _ _ s hrun).1⟩

/-- From two channels to one: the next write reads beyond the converted samples. -/
theorem format_not_consistent :
    ∃ s, (Audio.system (fun _ => 0) fun _ _ => True).Run
        [.paramChanged (some (4, 2)) zeroed, .paramChanged (some (4, 1)) none,
          .process true (some twoSamples) true] s ∧
      s.overrun = true ∧ ¬ s.Consistent := by
  have hend : ∃ s, (Audio.system (fun _ => 0) fun _ _ => True).Run
      [.paramChanged (some (4, 2)) zeroed, .paramChanged (some (4, 1)) none,
        .process true (some twoSamples) true] s ∧ s.overrun = true :=
    Labelled.exists_run (by decide)
  obtain ⟨s, hrun, hoverrun⟩ := hend
  exact ⟨s, hrun, hoverrun, fun h => Bool.noConfusion (hoverrun.symm.trans h.inBounds)⟩

end Stratus.CapturePw
