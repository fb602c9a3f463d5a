import Stratus.CapturePw.AudioFormat
import Stratus.Lib.Blocks

/-! The loop of `audio_encoder_main`: frames are read from the ring as they come, and encoded in
blocks of `frame_size` of them. -/
namespace Stratus.Encode

open Stratus.Lib Stratus.Common Stratus.CapturePw

namespace AudioBlocks

/-- `x + y` for `uint32_t`. -/
def add32 (x y : Nat) : Nat := (x + y) % 2 ^ 32

/-- `x - y` for `uint32_t`. -/
def sub32 (x y : Nat) : Nat := (x + 2 ^ 32 - y) % 2 ^ 32

/-- What `audio_encoder_main` has from the capture, which takes half a sample rate for the capacity,
or 2048. -/
structure Format where
  sampleRate : Nat
  channels : Nat
  bufferCapacityFrames : Nat
  frameSize : Nat
  sampleRate_lt : sampleRate < 2 ^ 32
  channels_lt : channels < 2 ^ 32
  capacity_pos : 0 < bufferCapacityFrames
  capacity_le : bufferCapacityFrames ≤ 2 ^ 31
  accepted : Audio.computeFrameSize sampleRate channels = some frameSize

/-- The bytes of `n` frames. -/
def Format.bytes (f : Format) (n : Nat) : Nat := RingBuffer.byteCount n (f.channels * 2)

/-- The variables of the loop.  `encoded` are the blocks that `encode_audio_frame` was called with,
and `errors` counts the calls that failed. -/
structure Loop where
  frameData : Bytes
  pendingFrame : Bytes
  pendingFrames : Nat
  framesRead : Nat
  framesConsumed : Nat
  encoded : List Bytes
  errors : Nat

/-- Why a run is not over: a copy is outside of an array, or the inner loop still goes on. -/
inductive Stop where
  | overrun
  | goesOn

section Source

variable (f : Format) (encodeAudioFrame : List Bytes → Bytes → Int)

/-- The block is encoded, whatever comes of it. -/
def Loop.encode (s : Loop) : Loop :=
  let block := s.pendingFrame.take (f.bytes f.frameSize)
  { s with
    encoded := s.encoded ++ [block]
    errors := if encodeAudioFrame s.encoded block < 0 then s.errors + 1 else s.errors
    pendingFrames := 0 }

/-- A turn of the inner loop. -/
def Loop.turn (s : Loop) : Except Stop Loop :=
  let framesAvailable := sub32 s.framesRead s.framesConsumed
  let framesNeeded := sub32 f.frameSize s.pendingFrames
  let framesToCopy := if framesNeeded < framesAvailable then framesNeeded else framesAvailable
  let place := RingBuffer.byteCount s.pendingFrames f.channels * 2
  let start := RingBuffer.byteCount s.framesConsumed f.channels * 2
  let count := f.bytes framesToCopy
  if place + count ≤ s.pendingFrame.length ∧ start + count ≤ s.frameData.length then
    let s := { s with
      pendingFrame := splice s.pendingFrame place (slice s.frameData start count)
      pendingFrames := add32 s.pendingFrames framesToCopy
      framesConsumed := add32 s.framesConsumed framesToCopy }
    if s.pendingFrames ≠ f.frameSize then .ok s else .ok (s.encode f encodeAudioFrame)
  else .error .overrun

/-- The inner loop, with so many turns at most. -/
def Loop.consume : Nat → Loop → Except Stop Loop
  | 0, s => if s.framesConsumed < s.framesRead then .error .goesOn else .ok s
  | turns + 1, s =>
      if s.framesConsumed < s.framesRead then (s.turn f encodeAudioFrame).bind (consume turns) else .ok s

/-- What a call of `ring_buffer_wait_read` returns: some frames, at most as many as there is room
for. -/
structure Read where
  frames : List Bytes
  sized : ∀ frame ∈ frames, frame.length = f.channels * 2
  pos : 0 < frames.length
  le : frames.length ≤ f.bufferCapacityFrames

variable {f} in
/-- The variables after the call. -/
def Loop.read (s : Loop) (r : Read f) : Loop :=
  { s with
    frameData := splice s.frameData 0 r.frames.flatten
    framesRead := r.frames.length
    framesConsumed := 0 }

/-- The outer loop over these reads.  A turn of the inner one consumes a frame at least. -/
def Loop.run : List (Read f) → Loop → Except Stop Loop
  | [], s => .ok s
  | r :: reads, s =>
      ((s.read r).consume f encodeAudioFrame r.frames.length).bind (run reads)

/-- The arrays that `malloc` returns, whatever is in the memory, and the variables before the
loop. -/
def Loop.start (frameData pendingFrame : Nat → UInt8) : Loop where
  frameData := (List.range (f.bytes f.bufferCapacityFrames)).map frameData
  pendingFrame := (List.range (f.bytes f.frameSize)).map pendingFrame
  pendingFrames := 0
  framesRead := 0
  framesConsumed := 0
  encoded := []
  errors := 0

end Source

/-! ### Numbers in range -/

section Format

variable (f : Format)

theorem Format.positive : 0 < f.frameSize ∧ 0 < f.channels ∧ f.frameSize < 2 ^ 31 := by
  have haccepted := f.accepted
  have hrate := f.sampleRate_lt
  unfold Audio.computeFrameSize at haccepted
  split at haccepted
  · cases haccepted
  · next hformat =>
    simp only [not_or, not_not] at hformat
    obtain ⟨hpos, hchannels, hwhole⟩ := hformat
    have hsize := Option.some.inj haccepted
    omega

/-- The bytes of a frame. -/
def Format.unit : Nat := f.channels * 2

theorem Format.unit_pos : 0 < f.unit := by
  have hchannels := f.positive.2.1
  rw [Format.unit]
  omega

theorem Format.bytes_eq {n : Nat} (hn : n ≤ 2 ^ 31) : f.bytes n = f.unit * n := by
  rw [Format.bytes, RingBuffer.byteCount_eq, Format.unit]
  calc f.channels * 2 * n ≤ f.channels * 2 * 2 ^ 31 := Nat.mul_le_mul_left _ hn
    _ < 2 ^ 64 := by have hchannels := f.channels_lt; omega

/-- The place of a frame in an array. -/
theorem Format.place_eq {n : Nat} (hn : n ≤ 2 ^ 31) :
    RingBuffer.byteCount n f.channels * 2 = f.unit * n := by
  rw [RingBuffer.byteCount_eq, Format.unit, Nat.mul_right_comm]
  calc f.channels * n ≤ f.channels * 2 ^ 31 := Nat.mul_le_mul_left _ hn
    _ < 2 ^ 64 := by have hchannels := f.channels_lt; omega

end Format

theorem sub32_eq {x y : Nat} (hle : y ≤ x) (hx : x < 2 ^ 32) : sub32 x y = x - y := by
  unfold sub32
  omega

theorem add32_eq {x y : Nat} (h : x + y < 2 ^ 32) : add32 x y = x + y := Nat.mod_eq_of_lt h

/-! ### The invariant -/

/-- The frames that have been consumed are in `stream`. -/
structure Loop.Inv (f : Format) (stream : Bytes) (s : Loop) : Prop where
  frameData : s.frameData.length = f.unit * f.bufferCapacityFrames
  pendingFrame : s.pendingFrame.length = f.unit * f.frameSize
  pendingFrames : s.pendingFrames < f.frameSize
  pending : s.pendingFrame.take (f.unit * s.pendingFrames) = leftover (f.unit * f.frameSize) stream
  encoded : s.encoded = blocks (f.unit * f.frameSize) stream

variable {f : Format} {s : Loop} {stream : Bytes} (encodeAudioFrame : List Bytes → Bytes → Int)

/-- How many frames a turn copies. -/
def Loop.copied (f : Format) (s : Loop) : Nat :=
  min (f.frameSize - s.pendingFrames) (s.framesRead - s.framesConsumed)

/-- The variables after a copy of so many frames. -/
def Loop.copy (f : Format) (s : Loop) (n : Nat) : Loop :=
  { s with
    pendingFrame := splice s.pendingFrame (f.unit * s.pendingFrames)
      (slice s.frameData (f.unit * s.framesConsumed) (f.unit * n))
    pendingFrames := s.pendingFrames + n
    framesConsumed := s.framesConsumed + n }

theorem Loop.Inv.turn_eq (h : s.Inv f stream) (hconsumed : s.framesConsumed < s.framesRead)
    (hread : s.framesRead ≤ f.bufferCapacityFrames) :
    s.turn f encodeAudioFrame = .ok (
      if s.pendingFrames + s.copied f ≠ f.frameSize then s.copy f (s.copied f)
      else (s.copy f (s.copied f)).encode f encodeAudioFrame) := by
  have hframeSize := f.positive.2.2
  have hcapacity := f.capacity_le
  have hpending := h.pendingFrames
  have hcopied : (if sub32 f.frameSize s.pendingFrames < sub32 s.framesRead s.framesConsumed then
      sub32 f.frameSize s.pendingFrames else sub32 s.framesRead s.framesConsumed) = s.copied f := by
    rw [sub32_eq hpending.le (by omega), sub32_eq hconsumed.le (by omega), Loop.copied]
    split <;> omega
  have hneeded : s.pendingFrames + s.copied f ≤ f.frameSize := by
    rw [Loop.copied]
    omega
  have havailable : s.framesConsumed + s.copied f ≤ f.bufferCapacityFrames := by
    rw [Loop.copied]
    omega
  have hdst : f.unit * s.pendingFrames + f.unit * s.copied f ≤ s.pendingFrame.length := by
    rw [h.pendingFrame, ← Nat.mul_add]
    exact Nat.mul_le_mul_left _ hneeded
  have hsrc : f.unit * s.framesConsumed + f.unit * s.copied f ≤ s.frameData.length := by
    rw [h.frameData, ← Nat.mul_add]
    exact Nat.mul_le_mul_left _ havailable
  unfold Loop.turn
  simp only [hcopied, f.place_eq (show s.pendingFrames ≤ 2 ^ 31 by omega),
    f.place_eq (show s.framesConsumed ≤ 2 ^ 31 by omega),
    f.bytes_eq (show s.copied f ≤ 2 ^ 31 by omega), hdst, hsrc, and_self, if_true,
    add32_eq (show s.pendingFrames + s.copied f < 2 ^ 32 by omega),
    add32_eq (show s.framesConsumed + s.copied f < 2 ^ 32 by omega)]
  split <;> rfl

/-- The frames that are copied next. -/
def Loop.next (f : Format) (s : Loop) (n : Nat) : Bytes :=
  slice s.frameData (f.unit * s.framesConsumed) (f.unit * n)

theorem Loop.Inv.length_next (h : s.Inv f stream) {n : Nat}
    (hread : s.framesConsumed + n ≤ f.bufferCapacityFrames) : (s.next f n).length = f.unit * n := by
  apply length_slice
  rw [h.frameData, ← Nat.mul_add]
  exact Nat.mul_le_mul_left _ hread

theorem Loop.Inv.length_leftover (h : s.Inv f stream) :
    (leftover (f.unit * f.frameSize) stream).length = f.unit * s.pendingFrames := by
  rw [← h.pending, List.length_take, h.pendingFrame]
  exact Nat.min_eq_left (Nat.mul_le_mul_left _ h.pendingFrames.le)

/-- The copied frames stand behind the ones that were left over. -/
theorem Loop.Inv.take_copy (h : s.Inv f stream) {n : Nat}
    (hread : s.framesConsumed + n ≤ f.bufferCapacityFrames) :
    (s.copy f n).pendingFrame.take (f.unit * (s.pendingFrames + n)) =
      leftover (f.unit * f.frameSize) stream ++ s.next f n := by
  have hle : f.unit * s.pendingFrames ≤ s.pendingFrame.length := by
    rw [h.pendingFrame]
    exact Nat.mul_le_mul_left _ h.pendingFrames.le
  rw [← h.pending, Nat.mul_add, ← h.length_next hread]
  exact take_splice hle

theorem Loop.Inv.length_copy (h : s.Inv f stream) {n : Nat}
    (hread : s.framesConsumed + n ≤ f.bufferCapacityFrames) (hn : s.pendingFrames + n ≤ f.frameSize) :
    (s.copy f n).pendingFrame.length = f.unit * f.frameSize := by
  rw [← h.pendingFrame]
  apply length_splice
  rw [← Loop.next, h.length_next hread, ← Nat.mul_add, h.pendingFrame]
  exact Nat.mul_le_mul_left _ hn

/-- Frames that do not fill the block stay in it. -/
theorem Loop.Inv.copy (h : s.Inv f stream) {n : Nat}
    (hread : s.framesConsumed + n ≤ f.bufferCapacityFrames) (hn : s.pendingFrames + n < f.frameSize) :
    (s.copy f n).Inv f (stream ++ s.next f n) := by
  have hshort : (leftover (f.unit * f.frameSize) stream).length + (s.next f n).length <
      f.unit * f.frameSize := by
    rw [h.length_leftover, h.length_next hread, ← Nat.mul_add]
    exact Nat.mul_lt_mul_of_pos_left hn f.unit_pos
  obtain ⟨hblocks, hleftover⟩ := blocks_append_of_lt hshort
  exact {
    frameData := h.frameData
    pendingFrame := h.length_copy hread hn.le
    pendingFrames := hn
    pending := (h.take_copy hread).trans hleftover.symm
    encoded := h.encoded.trans hblocks.symm }

/-- Frames that fill it are encoded with it. -/
theorem Loop.Inv.encode (h : s.Inv f stream) {n : Nat}
    (hread : s.framesConsumed + n ≤ f.bufferCapacityFrames) (hn : s.pendingFrames + n = f.frameSize) :
    ((s.copy f n).encode f encodeAudioFrame).Inv f (stream ++ s.next f n) := by
  obtain ⟨hframeSize, -, hsmall⟩ := f.positive
  have hfull : (leftover (f.unit * f.frameSize) stream).length + (s.next f n).length =
      f.unit * f.frameSize := by
    rw [h.length_leftover, h.length_next hread, ← Nat.mul_add, hn]
  obtain ⟨hblocks, hleftover⟩ := blocks_append_of_eq (Nat.mul_pos f.unit_pos hframeSize) hfull
  have hblock : (s.copy f n).pendingFrame.take (f.bytes f.frameSize) =
      leftover (f.unit * f.frameSize) stream ++ s.next f n := by
    rw [f.bytes_eq hsmall.le, ← hn, h.take_copy hread, hn]
  exact {
    frameData := h.frameData
    pendingFrame := h.length_copy hread hn.le
    pendingFrames := hframeSize
    pending := by rw [hleftover]; rfl
    encoded := by
      change s.encoded ++ [(s.copy f n).pendingFrame.take (f.bytes f.frameSize)] = _
      rw [hblock, h.encoded, hblocks] }

/-- A turn consumes a frame at least, and copies inside the arrays. -/
theorem Loop.Inv.turn (h : s.Inv f stream) (hconsumed : s.framesConsumed < s.framesRead)
    (hread : s.framesRead ≤ f.bufferCapacityFrames) :
    ∃ n t, 0 < n ∧ s.turn f encodeAudioFrame = .ok t ∧ t.framesRead = s.framesRead ∧
      t.framesConsumed = s.framesConsumed + n ∧ t.framesConsumed ≤ t.framesRead ∧
      t.frameData = s.frameData ∧ t.Inv f (stream ++ s.next f n) := by
  have hpending := h.pendingFrames
  have hpos : 0 < s.copied f := by rw [Loop.copied]; omega
  have havailable : s.framesConsumed + s.copied f ≤ s.framesRead := by rw [Loop.copied]; omega
  have hneeded : s.pendingFrames + s.copied f ≤ f.frameSize := by rw [Loop.copied]; omega
  have hcapacity := havailable.trans hread
  refine ⟨s.copied f, _, hpos, h.turn_eq encodeAudioFrame hconsumed hread, ?_⟩
  split
  · next hpartial =>
    exact ⟨rfl, rfl, havailable, rfl, h.copy hcapacity (Nat.lt_of_le_of_ne hneeded hpartial)⟩
  · next hfull =>
    exact ⟨rfl, rfl, havailable, rfl, h.encode encodeAudioFrame hcapacity (not_not.mp hfull)⟩

/-- The inner loop ends when all frames that were read are consumed. -/
theorem Loop.Inv.consume (h : s.Inv f stream) {turns : Nat} (hconsumed : s.framesConsumed ≤ s.framesRead)
    (hread : s.framesRead ≤ f.bufferCapacityFrames) (hturns : s.framesRead - s.framesConsumed ≤ turns) :
    ∃ t, s.consume f encodeAudioFrame turns = .ok t ∧
      t.Inv f (stream ++ s.next f (s.framesRead - s.framesConsumed)) := by
  induction turns generalizing s stream with
  | zero =>
      have hdone : s.framesRead - s.framesConsumed = 0 := by omega
      refine ⟨s, if_neg (by omega), ?_⟩
      rw [hdone, Loop.next, Nat.mul_zero, slice, List.take_zero, List.append_nil]
      exact h
  | succ turns ih =>
      rw [Loop.consume]
      by_cases hmore : s.framesConsumed < s.framesRead
      · obtain ⟨n, t, hpos, hturn, hsame, hnext, hle, hdata, hinv⟩ :=
          h.turn encodeAudioFrame hmore hread
        obtain ⟨u, hrest, hu⟩ := ih hinv hle (hsame ▸ hread) (by omega)
        refine ⟨u, ?_, ?_⟩
        · rw [if_pos hmore, hturn]
          exact hrest
        · have hall : n + (t.framesRead - t.framesConsumed) = s.framesRead - s.framesConsumed := by omega
          rw [List.append_assoc, Loop.next, Loop.next, hdata, hnext, Nat.mul_add, slice_append,
            ← Nat.mul_add, ← hnext, hall] at hu
          exact hu
      · have hdone : s.framesRead - s.framesConsumed = 0 := by omega
        refine ⟨s, if_neg hmore, ?_⟩
        rw [hdone, Loop.next, Nat.mul_zero, slice, List.take_zero, List.append_nil]
        exact h

/-- The frames that are read are consumed next. -/
theorem Loop.Inv.read (h : s.Inv f stream) (r : Read f) :
    (s.read r).Inv f stream ∧ (s.read r).next f r.frames.length = r.frames.flatten := by
  have hlength : r.frames.flatten.length = f.unit * r.frames.length := length_flatten_mul r.sized
  have hfits : 0 + r.frames.flatten.length ≤ s.frameData.length := by
    rw [Nat.zero_add, hlength, h.frameData]
    exact Nat.mul_le_mul_left _ r.le
  refine ⟨{ h with frameData := (length_splice hfits).trans h.frameData }, ?_⟩
  change ((splice s.frameData 0 r.frames.flatten).drop (f.unit * 0)).take (f.unit * r.frames.length) = _
  have htake := take_splice (x := r.frames.flatten) (Nat.zero_le s.frameData.length)
  rw [Nat.zero_add, List.take_zero, List.nil_append, hlength] at htake
  rw [Nat.mul_zero, List.drop_zero, htake]

/-- The bytes of all frames that were read. -/
def bytesOf (reads : List (Read f)) : Bytes := (reads.flatMap Read.frames).flatten

theorem Loop.Inv.run (h : s.Inv f stream) (reads : List (Read f)) :
    ∃ t, s.run f encodeAudioFrame reads = .ok t ∧ t.Inv f (stream ++ bytesOf reads) := by
  induction reads generalizing s stream with
  | nil => exact ⟨s, rfl, by rw [bytesOf, List.flatMap_nil, List.flatten_nil, List.append_nil]; exact h⟩
  | cons r reads ih =>
      obtain ⟨hinv, hnext⟩ := h.read r
      have hturns : (s.read r).framesRead - (s.read r).framesConsumed ≤ r.frames.length := Nat.le_refl _
      obtain ⟨t, hconsume, ht⟩ := hinv.consume encodeAudioFrame (Nat.zero_le _) r.le hturns
      obtain ⟨u, hrun, hu⟩ := ih ht
      refine ⟨u, ?_, ?_⟩
      · rw [Loop.run, hconsume]
        exact hrun
      · rw [bytesOf, List.flatMap_cons, List.flatten_append, ← List.append_assoc, ← hnext]
        exact hu

theorem Loop.Inv.start (f : Format) (frameData pendingFrame : Nat → UInt8) :
    (Loop.start f frameData pendingFrame).Inv f [] where
  frameData := by rw [Loop.start, List.length_map, List.length_range, f.bytes_eq f.capacity_le]
  pendingFrame := by rw [Loop.start, List.length_map, List.length_range, f.bytes_eq f.positive.2.2.le]
  pendingFrames := f.positive.1
  pending := by
    rw [Loop.start, Nat.mul_zero, List.take_zero, leftover, List.drop_nil]
  encoded := by
    rw [blocks, List.length_nil, Nat.zero_div]
    rfl

/-! ### The ring and the format -/

/-- A call of `ring_buffer_wait_read` that has something to read returns such frames. -/
theorem Loop.Inv.exists_read (h : s.Inv f stream) {ring : RingBuffer} {kept : RingBuffer.Kept}
    (hring : ring.Represents f.bufferCapacityFrames f.unit kept) (hkept : kept.items ≠ []) :
    ∃ (r : Read f) (ring' : RingBuffer), r.frames = kept.items.take f.bufferCapacityFrames ∧
      RingBuffer.waitRead (some s.frameData) f.bufferCapacityFrames ring =
        some (some (r.frames.length, some (s.read r).frameData), ring') ∧
      ring'.Represents f.bufferCapacityFrames f.unit
        { kept with items := kept.items.drop f.bufferCapacityFrames } := by
  have hcapacity := f.capacity_le
  obtain ⟨ring', hread, hafter⟩ := RingBuffer.call_waitRead hring f.capacity_pos (by omega)
    h.frameData.ge fun hempty => hkept hempty.1
  obtain ⟨-, hsize, -, cells, hholds, hunread⟩ := hring
  have hsized : ∀ frame ∈ kept.items.take f.bufferCapacityFrames, frame.length = f.channels * 2 := by
    intro frame hframe
    have hmem : frame ∈ ring.unread cells := hunread ▸ List.mem_of_mem_take hframe
    rw [hholds.sized frame (List.mem_rotate.mp (List.mem_of_mem_take hmem)), hsize]
    rfl
  have hlength : (kept.items.take f.bufferCapacityFrames).length =
      min f.bufferCapacityFrames kept.items.length := List.length_take
  have hpos := List.length_pos_iff.mpr hkept
  have hpositive := f.capacity_pos
  refine ⟨⟨kept.items.take f.bufferCapacityFrames, hsized, by omega, by omega⟩, ring', rfl, ?_, hafter⟩
  rw [hread, ← hlength]
  rfl

/-- The format is that of the encoder. -/
structure Format.IsOf (f : Format) (encoder : AudioEncoder) : Prop where
  sampleRate : f.sampleRate = encoder.sampleRate
  channels : f.channels = encoder.channels
  bufferCapacityFrames : f.bufferCapacityFrames = encoder.bufferCapacityFrames
  frameSize : f.frameSize = encoder.frameSize

/-- What the capture publishes, and what the encoder takes from it. -/
structure Published (s : Audio) : Prop where
  sampleRate : s.context.sampleRate < 2 ^ 32
  channels : s.context.channels < 2 ^ 32
  capacity : s.context.bufferCapacityFrames ≤ 2 ^ 31
  encoder : ∀ encoder, s.encoder = .running encoder → ∃ f : Format, f.IsOf encoder

theorem Published.onStreamParamChanged {s : Audio} (h : Published s) (format : Option (UInt32 × UInt32))
    (memory : Memory) : Published (s.onStreamParamChanged format memory) := by
  unfold Audio.onStreamParamChanged
  cases format with
  | none => exact h
  | some format =>
      obtain ⟨rate, channels⟩ := format
      have hrate := rate.toNat_lt
      dsimp only
      split
      · exact ⟨hrate, channels.toNat_lt, h.capacity, h.encoder⟩
      · split
        · exact h
        · refine ⟨hrate, channels.toNat_lt, ?_, h.encoder⟩
          change (if rate.toNat / 2 = 0 then 2048 else rate.toNat / 2) ≤ 2 ^ 31
          split <;> omega

/-- A step that touches the ring alone. -/
theorem Published.of_eq {s t : Audio} (h : Published s)
    (hrate : t.context.sampleRate = s.context.sampleRate)
    (hchannels : t.context.channels = s.context.channels)
    (hcapacity : t.context.bufferCapacityFrames = s.context.bufferCapacityFrames)
    (hencoder : t.encoder = s.encoder) : Published t :=
  ⟨hrate ▸ h.sampleRate, hchannels ▸ h.channels, hcapacity ▸ h.capacity, hencoder ▸ h.encoder⟩

theorem Published.onProcess {s : Audio} (h : Published s) (floatToS16 : UInt32 → UInt16)
    (clientConnected : Bool) (chunk : Option Chunk) (realloc : Bool) :
    Published (s.onProcess floatToS16 clientConnected chunk realloc) := by
  unfold Audio.onProcess
  split
  · dsimp only
    split
    · exact h
    · split
      · exact h
      · unfold Audio.writeFrames
        dsimp only
        split
        · exact h.of_eq rfl rfl rfl rfl
        · exact h.of_eq rfl rfl rfl rfl
  · exact h

theorem Published.encoderStart {s : Audio} (h : Published s) (memory : Memory) :
    Published (s.encoderStart memory) := by
  unfold Audio.encoderStart
  dsimp only
  split
  · exact ⟨h.sampleRate, h.channels, h.capacity, nofun⟩
  · next hready =>
    simp only [Bool.or_eq_true, decide_eq_true_eq, not_or] at hready
    split
    · next frameSize frameData hframe hmemory =>
      refine ⟨h.sampleRate, h.channels, h.capacity, ?_⟩
      rintro _ ⟨⟩
      exact ⟨⟨_, _, _, frameSize, h.sampleRate, h.channels, Nat.pos_of_ne_zero hready.2, h.capacity,
        hframe⟩, rfl, rfl, rfl, rfl⟩
    · exact ⟨h.sampleRate, h.channels, h.capacity, nofun⟩

theorem Published.encoderRead {s t : Audio} (h : Published s) {encoder : AudioEncoder}
    (hencoder : s.encoder = .running encoder) {ring : RingBuffer}
    (hstep : s.encoderRead encoder ring = some t) : Published t := by
  unfold Audio.encoderRead at hstep
  split at hstep
  · obtain rfl := Option.some.inj hstep
    exact h.of_eq rfl rfl rfl rfl
  · cases hstep
  · dsimp only at hstep
    split at hstep
    · obtain rfl := Option.some.inj hstep
      exact ⟨h.sampleRate, h.channels, h.capacity, nofun⟩
    · obtain rfl := Option.some.inj hstep
      refine ⟨h.sampleRate, h.channels, h.capacity, ?_⟩
      rintro _ ⟨⟩
      obtain ⟨f, hf⟩ := h.encoder encoder hencoder
      exact ⟨f, hf.sampleRate, hf.channels, hf.bufferCapacityFrames, hf.frameSize⟩

/-- The encoder always has such a format. -/
theorem published {floatToS16 : UInt32 → UInt16} {allowed : Audio → AudioStep → Prop}
    {trace : List AudioStep} {s : Audio} (hs : (Audio.system floatToS16 allowed).Run trace s) :
    Published s := by
  refine hs.always Published ?_ ?_
  · rintro _ rfl
    exact ⟨by decide, by decide, by decide, nofun⟩
  · rintro s step t h ⟨-, hstep⟩
    rcases Audio.next_cases hstep with ⟨format, memory, -, rfl⟩ |
      ⟨clientConnected, chunk, realloc, -, rfl⟩ | ⟨-, rfl⟩ | ⟨memory, -, rfl⟩ |
      ⟨encoder, ring, -, hencoder, -, hread⟩
    · exact h.onStreamParamChanged format memory
    · exact h.onProcess floatToS16 clientConnected chunk realloc
    · exact h.of_eq rfl rfl rfl rfl
    · exact h.encoderStart memory
    · exact h.encoderRead hencoder hread

/-! ### The blocks -/

/-- The blocks are those of the frames that were read, one after the other; the frames behind the
last of them are kept, and too few for another one. -/
structure Loop.Reblocked (f : Format) (reads : List (Read f)) (s : Loop) : Prop where
  encoded : s.encoded = blocks (f.unit * f.frameSize) (bytesOf reads)
  sized : ∀ block ∈ s.encoded, block.length = f.unit * f.frameSize
  whole : s.encoded.flatten ++ s.pendingFrame.take (f.unit * s.pendingFrames) = bytesOf reads
  pendingFrames : s.pendingFrames < f.frameSize

/-- Whatever is read, and whatever becomes of the blocks, the loops end each time, and no copy is
outside of an array. -/
theorem audio_reblocked (f : Format) (encodeAudioFrame : List Bytes → Bytes → Int)
    (frameData pendingFrame : Nat → UInt8) (reads : List (Read f)) :
    1 ≤ f.frameSize ∧ ∃ s, (Loop.start f frameData pendingFrame).run f encodeAudioFrame reads = .ok s ∧
      s.Reblocked f reads := by
  refine ⟨f.positive.1, ?_⟩
  obtain ⟨s, hrun, hs⟩ := (Loop.Inv.start f frameData pendingFrame).run encodeAudioFrame reads
  rw [List.nil_append] at hs
  refine ⟨s, hrun, hs.encoded, ?_, ?_, hs.pendingFrames⟩
  · rw [hs.encoded]
    exact fun block => length_of_mem_blocks _
  · rw [hs.encoded, hs.pending, flatten_blocks]

end AudioBlocks

end Stratus.Encode
