import Stratus.Lib.Splice
import Stratus.Lib.Transition
import Mathlib.Algebra.GroupWithZero.Nat

/-! `struct wl_ring_buffer`: a ring whose size is a power of two and changes with what it has to
hold.  Whatever is done with it, it is a queue of bytes. -/
namespace Stratus.Capture.WlRing

open Stratus.Lib

/-- `head` and `tail` only grow, and are masked where they are used. -/
structure RingBuffer where
  data : List UInt8
  head : Nat
  tail : Nat
  sizeBits : Nat
  maxSizeBits : Nat

/-- `WL_BUFFER_DEFAULT_SIZE_POT`. -/
def defaultSizePot : Nat := 12

/-- The loop of `get_max_size_bits_for_size`. -/
def growBits (size : Nat) : Nat → Nat → Nat
  | 0, bits => bits
  | rounds + 1, bits => if 2 ^ bits < size then growBits size rounds (bits + 1) else bits

/-- A `size_t` has 64 bits. -/
def getMaxSizeBitsForSize (size : Nat) : Nat :=
  if size = 0 then 0 else growBits size (64 - defaultSizePot) defaultSizePot

namespace RingBuffer

/-- A zeroed buffer, without memory. -/
def zeroed (maxSizeBits : Nat) : RingBuffer := ⟨[], 0, 0, 0, maxSizeBits⟩

def capacity (b : RingBuffer) : Nat := 2 ^ b.sizeBits

def mask (b : RingBuffer) (i : Nat) : Nat := i &&& (b.capacity - 1)

def size (b : RingBuffer) : Nat := b.head - b.tail

/-- `memcpy` to these parts of the memory, or what `recvmsg` does with them. -/
def scatter : List (Nat × Nat) → List UInt8 → List UInt8 → List UInt8
  | [], _, data => data
  | (base, len) :: parts, bytes, data =>
      scatter parts (bytes.drop len) (splice data base (bytes.take len))

/-- What is in these parts, one after the other. -/
def gatherParts (data : List UInt8) (parts : List (Nat × Nat)) : List UInt8 :=
  parts.flatMap fun part => slice data part.1 part.2

/-- The parts do not leave memory of this size. -/
def Within (parts : List (Nat × Nat)) (size : Nat) : Prop :=
  ∀ part ∈ parts, part.1 + part.2 ≤ size

instance (parts : List (Nat × Nat)) (size : Nat) : Decidable (Within parts size) := by
  unfold Within
  infer_instance

/-- Where `ring_buffer_put` and `ring_buffer_copy` find these many bytes from an index on. -/
def parts (b : RingBuffer) (index count : Nat) : List (Nat × Nat) :=
  if count = 0 then []
  else
    let start := b.mask index
    if start + count ≤ b.capacity then [(start, count)]
    else
      let size := b.capacity - start
      [(start, size), (0, count - size)]

/-- `ring_buffer_put`. -/
def put (b : RingBuffer) (bytes : List UInt8) : RingBuffer :=
  { b with
    data := scatter (b.parts b.head bytes.length) bytes b.data
    head := b.head + bytes.length }

/-- `ring_buffer_put_iov`: the parts of the memory that are free. -/
def putIov (b : RingBuffer) : List (Nat × Nat) :=
  let head := b.mask b.head
  let tail := b.mask b.tail
  if head < tail then [(head, tail - head)]
  else if tail = 0 then [(head, b.capacity - head)]
  else [(head, b.capacity - head), (0, tail)]

/-- `wl_connection_read` when that many bytes have come. -/
def receive (b : RingBuffer) (bytes : List UInt8) : RingBuffer :=
  { b with data := scatter b.putIov bytes b.data, head := b.head + bytes.length }

/-- `ring_buffer_get_iov`: the parts of the memory that are in use. -/
def getIov (b : RingBuffer) : List (Nat × Nat) :=
  let head := b.mask b.head
  let tail := b.mask b.tail
  if tail < head then [(tail, head - tail)]
  else if head = 0 then [(tail, b.capacity - tail)]
  else [(tail, b.capacity - tail), (0, head)]

/-- The bytes that `sendmsg` is given. -/
def gather (b : RingBuffer) : List UInt8 := gatherParts b.data b.getIov

/-- `ring_buffer_copy`. -/
def copy (b : RingBuffer) (count : Nat) : List UInt8 := gatherParts b.data (b.parts b.tail count)

/-- `connection->in.tail += size`. -/
def consume (b : RingBuffer) (size : Nat) : RingBuffer := { b with tail := b.tail + size }

/-- `ring_buffer_allocate`, with memory that has been zeroed. -/
def allocate (b : RingBuffer) (sizeBits : Nat) : RingBuffer where
  data := splice (List.replicate (2 ^ sizeBits) 0) 0 (b.copy b.size)
  head := b.size
  tail := 0
  sizeBits := sizeBits
  maxSizeBits := b.maxSizeBits

/-- `ring_buffer_get_bits_for_size`, which looks at `max_size_bits` only. -/
def getBitsForSize (maxSizeBits netSize : Nat) : Nat :=
  let bits := max (getMaxSizeBitsForSize netSize) defaultSizePot
  if 0 < maxSizeBits ∧ maxSizeBits < bits then maxSizeBits else bits

/-- `ring_buffer_is_max_size_reached`. -/
def isMaxSizeReached (b : RingBuffer) : Bool :=
  2 ^ getBitsForSize b.maxSizeBits (b.size + 1) ≤ b.size + 1

/-- `E2BIG`, or `calloc` fails. -/
inductive Refusal where
  | tooBig
  | noMemory
deriving DecidableEq

/-- `ring_buffer_ensure_space`.  `memory` says whether there is any for a new buffer. -/
def ensureSpace (b : RingBuffer) (count : Nat) (memory : Bool) : Except Refusal RingBuffer :=
  let netSize := b.size + count
  let sizeBits := getBitsForSize b.maxSizeBits netSize
  if 2 ^ sizeBits < netSize then .error .tooBig
  else if sizeBits = b.sizeBits then .ok b
  else if memory then .ok (b.allocate sizeBits)
  else .error .noMemory

/-- A buffer of `wl_connection_create`, which does not look at the result. -/
def create (maxSizeBits : Nat) (memory : Bool) : RingBuffer :=
  match (zeroed maxSizeBits).ensureSpace 0 memory with
  | .ok b => b
  | .error _ => zeroed maxSizeBits

/-! ## The queue -/

structure Valid (b : RingBuffer) : Prop where
  length : b.data.length = b.capacity
  le : b.tail ≤ b.head
  used : b.head ≤ b.tail + b.capacity
  maxSize : b.maxSizeBits ≤ 64

/-- The bytes between `tail` and `head`. -/
def contents (b : RingBuffer) : List UInt8 := window b.data (b.mask b.tail) b.size

theorem mask_eq (b : RingBuffer) (i : Nat) : b.mask i = i % b.capacity :=
  Nat.and_two_pow_sub_one_eq_mod i b.sizeBits

theorem capacity_pos (b : RingBuffer) : 0 < b.capacity := Nat.two_pow_pos b.sizeBits

theorem mask_lt (b : RingBuffer) (i : Nat) : b.mask i < b.capacity := by
  rw [mask_eq]
  exact Nat.mod_lt i b.capacity_pos

/-- Both copies of `ring_buffer_put` at once. -/
theorem scatter_parts (b : RingBuffer) (index : Nat) (bytes data : List UInt8) :
    scatter (b.parts index bytes.length) bytes data =
      splice (splice data (b.mask index) (bytes.take (b.capacity - b.mask index))) 0
        (bytes.drop (b.capacity - b.mask index)) := by
  unfold parts
  split
  · next hzero =>
    rw [List.length_eq_zero_iff.mp hzero, List.take_nil, List.drop_nil, splice_nil, splice_nil]
    rfl
  · dsimp only
    split
    · next hle =>
      rw [scatter, scatter, List.take_length, List.take_of_length_le (by omega),
        List.drop_of_length_le (i := b.capacity - b.mask index) (by omega), splice_nil]
    · have hrest : (bytes.drop (b.capacity - b.mask index)).take
          (bytes.length - (b.capacity - b.mask index)) = bytes.drop (b.capacity - b.mask index) :=
        List.take_of_length_le (Nat.le_of_eq List.length_drop)
      rw [scatter, scatter, scatter, hrest]

/-- Both copies of `ring_buffer_copy` at once. -/
theorem gatherParts_parts (b : RingBuffer) (index count : Nat) (data : List UInt8) :
    gatherParts data (b.parts index count) =
      slice data (b.mask index) (min (b.capacity - b.mask index) count) ++
        slice data 0 (count - min (b.capacity - b.mask index) count) := by
  unfold parts
  split
  · next hzero =>
    rw [hzero, Nat.min_zero]
    rfl
  · dsimp only
    split
    · next hle =>
      rw [Nat.min_eq_right (by omega), Nat.sub_self]
      rfl
    · next hgt =>
      rw [Nat.min_eq_left (by omega)]
      exact congrArg (_ ++ ·) (List.append_nil _)

theorem parts_within (b : RingBuffer) (index : Nat) {count : Nat} (hcount : count ≤ b.capacity) :
    Within (b.parts index count) b.capacity := by
  have hmask := b.mask_lt index
  intro part hmem
  unfold parts at hmem
  split at hmem
  · cases hmem
  · dsimp only at hmem
    split at hmem
    · next hle =>
      rw [List.mem_singleton.mp hmem]
      exact hle
    · rcases List.mem_pair.mp hmem with rfl | rfl
      · show b.mask index + (b.capacity - b.mask index) ≤ b.capacity
        omega
      · show 0 + (count - (b.capacity - b.mask index)) ≤ b.capacity
        omega

theorem putIov_within (b : RingBuffer) : Within b.putIov b.capacity := by
  have hhead := b.mask_lt b.head
  have htail := b.mask_lt b.tail
  intro part hmem
  unfold putIov at hmem
  dsimp only at hmem
  split at hmem
  · rw [List.mem_singleton.mp hmem]
    dsimp only
    omega
  · split at hmem
    · rw [List.mem_singleton.mp hmem]
      dsimp only
      omega
    · rcases List.mem_pair.mp hmem with rfl | rfl <;> dsimp only <;> omega

theorem getIov_within (b : RingBuffer) : Within b.getIov b.capacity := by
  have hhead := b.mask_lt b.head
  have htail := b.mask_lt b.tail
  intro part hmem
  unfold getIov at hmem
  dsimp only at hmem
  split at hmem
  · rw [List.mem_singleton.mp hmem]
    dsimp only
    omega
  · split at hmem
    · rw [List.mem_singleton.mp hmem]
      dsimp only
      omega
    · rcases List.mem_pair.mp hmem with rfl | rfl <;> dsimp only <;> omega

section Valid

variable {b : RingBuffer} (h : b.Valid)

include h

theorem Valid.size_le : b.size ≤ b.capacity := by
  have hused := h.used
  rw [size]
  omega

theorem Valid.length_contents : b.contents.length = b.size :=
  length_window (h.length ▸ h.size_le)

theorem Valid.mask_head : b.mask b.head = (b.mask b.tail + b.size) % b.data.length := by
  have hle := h.le
  rw [h.length, mask_eq, mask_eq, Nat.mod_add_mod, size, Nat.add_sub_cancel' hle]

theorem Valid.put_data (bytes : List UInt8) :
    (b.put bytes).data = splice (splice b.data (b.mask b.head)
      (bytes.take (b.data.length - b.mask b.head))) 0 (bytes.drop (b.data.length - b.mask b.head)) := by
  rw [h.length]
  exact scatter_parts b b.head bytes b.data

theorem Valid.put (bytes : List UInt8) (hroom : b.size + bytes.length ≤ b.capacity) :
    (b.put bytes).Valid ∧ (b.put bytes).contents = b.contents ++ bytes := by
  have hdata := h.put_data bytes
  have hwindow := window_splice (x := bytes) h.mask_head (h.length ▸ b.capacity_pos)
    (h.length ▸ hroom)
  rw [← hdata] at hwindow
  have hlength := h.length
  have hle := h.le
  have hmask := b.mask_lt b.head
  have hroom' := hroom
  rw [size] at hroom'
  refine ⟨⟨?_, ?_, ?_, h.maxSize⟩, ?_⟩
  · show (b.put bytes).data.length = b.capacity
    rw [hdata, length_splice, length_splice, hlength]
    · rw [List.length_take]
      omega
    · rw [length_splice (by rw [List.length_take]; omega), List.length_drop]
      omega
  · show b.tail ≤ b.head + bytes.length
    omega
  · show b.head + bytes.length ≤ b.tail + b.capacity
    omega
  · have hsize : (b.put bytes).size = b.size + bytes.length := by
      show b.head + bytes.length - b.tail = b.head - b.tail + bytes.length
      omega
    rw [contents, hsize]
    exact hwindow

/-- What is copied comes first in the queue. -/
theorem Valid.copy {count : Nat} (hcount : count ≤ b.size) : b.copy count = b.contents.take count := by
  have hle := h.size_le
  have hmask := b.mask_lt b.tail
  have hwrap : _ ++ _ = (b.data.rotate (b.mask b.tail)).take count :=
    slice_wrap (by rw [h.length]; omega) (by rw [h.length]; omega)
  rw [contents, window, List.take_take, Nat.min_eq_left hcount, ← hwrap, h.length, RingBuffer.copy]
  exact gatherParts_parts b b.tail count b.data

theorem Valid.consume {count : Nat} (hcount : count ≤ b.size) :
    (b.consume count).Valid ∧ (b.consume count).contents = b.contents.drop count := by
  have hle := h.le
  have hused := h.used
  rw [size] at hcount
  refine ⟨⟨h.length, ?_, ?_, h.maxSize⟩, ?_⟩
  · show b.tail + count ≤ b.head
    omega
  · show b.head ≤ b.tail + count + b.capacity
    omega
  · have hsize : (b.consume count).size = b.size - count := Nat.sub_add_eq b.head b.tail count
    have hmask : (b.consume count).mask (b.consume count).tail =
        (b.mask b.tail + count) % b.data.length := by
      show b.mask (b.tail + count) = _
      rw [h.length, mask_eq, mask_eq, Nat.mod_add_mod]
    rw [contents, hsize, hmask, contents]
    exact (window_drop (by rw [size]; omega) (h.size_le.trans_eq h.length.symm)).symm

/-- Where the end of the queue is, seen from its beginning. -/
theorem Valid.mask_head_cases :
    (b.mask b.head = b.mask b.tail + b.size ∧ b.mask b.tail + b.size < b.capacity) ∨
      (b.mask b.head + b.capacity = b.mask b.tail + b.size ∧ b.mask b.head ≤ b.mask b.tail) := by
  have hle := h.size_le
  have htail := b.mask_lt b.tail
  have hhead := h.mask_head
  rw [h.length] at hhead
  rcases Nat.lt_or_ge (b.mask b.tail + b.size) b.capacity with hlt | hge
  · rw [Nat.mod_eq_of_lt hlt] at hhead
    exact .inl ⟨hhead, hlt⟩
  · rw [Nat.mod_eq_sub_mod hge, Nat.mod_eq_of_lt (by omega)] at hhead
    exact .inr (by omega)

/-- `sendmsg` is given the whole queue. -/
theorem Valid.gather (hpos : 0 < b.size) : b.gather = b.contents := by
  have hle := h.size_le
  have htail := b.mask_lt b.tail
  have hwrap : _ ++ _ = (b.data.rotate (b.mask b.tail)).take b.size :=
    slice_wrap (by rw [h.length]; omega) (by rw [h.length]; omega)
  rw [h.length] at hwrap
  rw [contents, window, ← hwrap, RingBuffer.gather, getIov]
  rcases h.mask_head_cases with ⟨hhead, hlt⟩ | ⟨hhead, hback⟩
  · rw [if_pos (by omega), Nat.min_eq_right (by omega), Nat.sub_self, hhead, Nat.add_sub_cancel_left]
    rfl
  · rw [if_neg (by omega), Nat.min_eq_left (by omega)]
    split
    · rw [show b.size - (b.capacity - b.mask b.tail) = 0 by omega]
      rfl
    · rw [show b.size - (b.capacity - b.mask b.tail) = b.mask b.head by omega]
      exact congrArg (_ ++ ·) (List.append_nil _)

/-- What `recvmsg` puts into the free parts is what would be put there by hand. -/
theorem Valid.receive_eq (bytes : List UInt8) (hfree : b.size < b.capacity)
    (hroom : b.size + bytes.length ≤ b.capacity) : b.receive bytes = b.put bytes := by
  have hdata := h.put_data bytes
  rw [h.length] at hdata
  have htail := b.mask_lt b.tail
  have hfields : b.put bytes =
      { b with data := (b.put bytes).data, head := b.head + bytes.length } := rfl
  rw [hfields, receive, hdata, putIov]
  congr 1
  split
  · next hlt =>
    have hshort : bytes.length ≤ b.mask b.tail - b.mask b.head := by
      rcases h.mask_head_cases with hcase | hcase <;> omega
    rw [scatter, scatter, List.take_of_length_le hshort, List.take_of_length_le (by omega),
      List.drop_of_length_le (i := b.capacity - b.mask b.head) (by omega), splice_nil]
  · split
    · next htailzero =>
      have hshort : bytes.length ≤ b.capacity - b.mask b.head := by
        rcases h.mask_head_cases with hcase | hcase <;> omega
      rw [scatter, scatter, List.drop_of_length_le hshort, splice_nil]
    · next hge hpositive =>
      have hshort : (bytes.drop (b.capacity - b.mask b.head)).length ≤ b.mask b.tail := by
        rw [List.length_drop]
        rcases h.mask_head_cases with hcase | hcase <;> omega
      rw [scatter, scatter, scatter, List.take_of_length_le hshort]

end Valid

/-- A buffer that has memory, or none yet. -/
inductive Usable : RingBuffer → Prop
  | valid {b : RingBuffer} (h : b.Valid) : Usable b
  | zeroed {maxSizeBits : Nat} (hmax : maxSizeBits ≤ 64) : Usable (zeroed maxSizeBits)

section Usable

variable {b : RingBuffer} (h : b.Usable)

include h

theorem Usable.maxSize : b.maxSizeBits ≤ 64 := by
  cases h with
  | valid h => exact h.maxSize
  | zeroed hmax => exact hmax

theorem Usable.length_contents : b.contents.length = b.size := by
  cases h with
  | valid h => exact h.length_contents
  | zeroed => rfl

/-- `ring_buffer_allocate` copies the whole queue, and reads no more than there is. -/
theorem Usable.copy_all :
    b.copy b.size = b.contents ∧ Within (b.parts b.tail b.size) b.data.length := by
  cases h with
  | valid h =>
      refine ⟨?_, h.length ▸ b.parts_within b.tail h.size_le⟩
      rw [h.copy (Nat.le_refl _), List.take_of_length_le (Nat.le_of_eq h.length_contents)]
  | zeroed => exact ⟨rfl, nofun⟩

/-- A reallocation that keeps enough room changes nothing in the queue. -/
theorem Usable.allocate {sizeBits : Nat} (hroom : b.size ≤ 2 ^ sizeBits) :
    (b.allocate sizeBits).Valid ∧ (b.allocate sizeBits).contents = b.contents := by
  obtain ⟨hcopy, -⟩ := h.copy_all
  have hlength : (b.copy b.size).length = b.size := by rw [hcopy, h.length_contents]
  have hdata : (b.allocate sizeBits).data.length = 2 ^ sizeBits := by
    rw [RingBuffer.allocate, length_splice, List.length_replicate]
    rw [List.length_replicate]
    omega
  refine ⟨⟨hdata, Nat.zero_le _, ?_, h.maxSize⟩, ?_⟩
  · show b.size ≤ 0 + 2 ^ sizeBits
    omega
  · have hmask : (b.allocate sizeBits).mask 0 = 0 := Nat.zero_and _
    show window (splice (List.replicate (2 ^ sizeBits) 0) 0 (b.copy b.size))
      ((b.allocate sizeBits).mask 0) b.size = _
    rw [hmask, window, List.rotate_zero, splice, List.take_zero, List.nil_append]
    exact (List.take_left' hlength).trans hcopy

end Usable

/-! ## Its size -/

theorem growBits_spec (size rounds bits : Nat) :
    bits ≤ growBits size rounds bits ∧ growBits size rounds bits ≤ bits + rounds ∧
      (growBits size rounds bits < bits + rounds → size ≤ 2 ^ growBits size rounds bits) := by
  induction rounds generalizing bits with
  | zero => exact ⟨Nat.le_refl _, Nat.le_refl _, fun hlt => absurd hlt (Nat.lt_irrefl _)⟩
  | succ rounds ih =>
      rw [growBits]
      split
      · obtain ⟨hlow, hhigh, hsize⟩ := ih (bits + 1)
        exact ⟨by omega, by omega, fun hlt => hsize (by omega)⟩
      · next hsize => exact ⟨Nat.le_refl _, by omega, fun _ => Nat.le_of_not_lt hsize⟩

/-- How many bytes a buffer may hold at most. -/
def limit (maxSizeBits : Nat) : Nat := if maxSizeBits = 0 then 2 ^ 64 else 2 ^ maxSizeBits

theorem getBitsForSize_spec {maxSizeBits : Nat} (hmax : maxSizeBits ≤ 64) (size : Nat) :
    2 ^ getBitsForSize maxSizeBits size < size ↔ limit maxSizeBits < size := by
  obtain ⟨bits, hbits⟩ : ∃ bits, bits = max (getMaxSizeBitsForSize size) defaultSizePot := ⟨_, rfl⟩
  -- without a maximum the buffer is large enough, as far as 64 bits go
  have hlarge : bits ≤ 64 ∧ (bits < 64 → size ≤ 2 ^ bits) := by
    rw [hbits, getMaxSizeBitsForSize]
    split
    · next hzero => exact ⟨by decide, fun _ => by rw [hzero]; exact Nat.zero_le _⟩
    · obtain ⟨hlow, hhigh, hsize⟩ := growBits_spec size (64 - defaultSizePot) defaultSizePot
      have hsum : defaultSizePot + (64 - defaultSizePot) = 64 := rfl
      rw [hsum] at hhigh hsize
      rw [Nat.max_eq_left hlow]
      exact ⟨hhigh, hsize⟩
  have hle : size ≤ 2 ^ bits ∨ bits = 64 := by
    rcases Nat.lt_or_ge bits 64 with hlt | hge
    · exact .inl (hlarge.2 hlt)
    · exact .inr (Nat.le_antisymm hlarge.1 hge)
  rw [getBitsForSize, limit, ← hbits]
  by_cases hzero : maxSizeBits = 0
  · rw [if_neg (by omega), if_pos hzero]
    have hpow : 2 ^ bits ≤ 2 ^ 64 := Nat.pow_le_pow_right (by decide) hlarge.1
    rcases hle with hle | rfl
    · exact ⟨fun hlt => absurd hlt (Nat.not_lt.mpr hle), fun hlt => by omega⟩
    · exact Iff.rfl
  · rw [if_neg hzero]
    split
    · exact Iff.rfl
    · next hmore =>
      have hpow : 2 ^ bits ≤ 2 ^ maxSizeBits := Nat.pow_le_pow_right (by decide) (by omega)
      have hsame : bits = 64 → maxSizeBits = 64 := by omega
      rcases hle with hle | hfull
      · exact ⟨fun hlt => absurd hlt (Nat.not_lt.mpr hle), fun hlt => by omega⟩
      · rw [hfull, hsame hfull]

theorem getBitsForSize_pos (maxSizeBits size : Nat) : 0 < getBitsForSize maxSizeBits size := by
  have hpot : 0 < defaultSizePot := by decide
  unfold getBitsForSize
  dsimp only
  split <;> omega

/-- The buffer that `ring_buffer_ensure_space` leaves for these many bytes more. -/
structure Ensured (b : RingBuffer) (count : Nat) (b' : RingBuffer) : Prop where
  valid : b'.Valid
  contents : b'.contents = b.contents
  room : b.size + count ≤ b'.capacity
  maxSizeBits : b'.maxSizeBits = b.maxSizeBits
  sizeBits : b'.sizeBits = getBitsForSize b.maxSizeBits (b.size + count)

theorem Ensured.size {b b' : RingBuffer} {count : Nat} (h : Ensured b count b') (hb : b.Usable) :
    b'.size = b.size := by
  rw [← h.valid.length_contents, h.contents, hb.length_contents]

/-- Space is made for what is needed, up to the limit and while there is memory. -/
theorem Usable.ensureSpace {b : RingBuffer} (h : b.Usable) (count : Nat) (memory : Bool) :
    (limit b.maxSizeBits < b.size + count ∧ b.ensureSpace count memory = .error .tooBig) ∨
      (b.size + count ≤ limit b.maxSizeBits ∧
        (b.sizeBits ≠ getBitsForSize b.maxSizeBits (b.size + count) ∧ memory = false) ∧
        b.ensureSpace count memory = .error .noMemory) ∨
      (b.size + count ≤ limit b.maxSizeBits ∧
        ¬ (b.sizeBits ≠ getBitsForSize b.maxSizeBits (b.size + count) ∧ memory = false) ∧
        ∃ b', b.ensureSpace count memory = .ok b' ∧ Ensured b count b') := by
  have hspec := getBitsForSize_spec h.maxSize (b.size + count)
  have hpos := getBitsForSize_pos b.maxSizeBits (b.size + count)
  unfold RingBuffer.ensureSpace
  dsimp only
  split
  · next hlt => exact .inl ⟨hspec.mp hlt, rfl⟩
  · next hge =>
    have hroom := Nat.le_of_not_lt hge
    have hlimit := Nat.le_of_not_lt fun hlt => hge (hspec.mpr hlt)
    refine .inr ?_
    split
    · next hsame =>
      refine .inr ⟨hlimit, fun hnot => hnot.1 hsame.symm, b, rfl, ?_⟩
      cases h with
      | valid h => exact ⟨h, rfl, by rwa [hsame] at hroom, rfl, hsame.symm⟩
      | zeroed => exact absurd hsame (Nat.ne_of_gt hpos)
    · next hother =>
      cases memory with
      | false => exact .inl ⟨hlimit, ⟨Ne.symm hother, rfl⟩, rfl⟩
      | true =>
          obtain ⟨hvalid, hcontents⟩ :=
            h.allocate (Nat.le_trans (Nat.le_add_right _ count) hroom)
          exact .inr ⟨hlimit, fun hnot => Bool.noConfusion hnot.2, _, rfl, hvalid, hcontents, hroom,
            rfl, rfl⟩

theorem create_usable {maxSizeBits : Nat} (hmax : maxSizeBits ≤ 64) (memory : Bool) :
    (create maxSizeBits memory).Usable ∧ (create maxSizeBits memory).contents = [] ∧
      (create maxSizeBits memory).maxSizeBits = maxSizeBits ∧
      (create maxSizeBits memory).sizeBits = if memory then getBitsForSize maxSizeBits 0 else 0 := by
  have hzeroed : (zeroed maxSizeBits).Usable := .zeroed hmax
  have hpos := getBitsForSize_pos maxSizeBits 0
  unfold create
  rcases hzeroed.ensureSpace 0 memory with
    ⟨hlimit, -⟩ | ⟨-, ⟨-, hmemory⟩, hrefused⟩ | ⟨-, hmemory, b, hensured, hb⟩
  · exact absurd hlimit (Nat.not_lt_zero _)
  · rw [hrefused, hmemory]
    exact ⟨hzeroed, rfl, rfl, rfl⟩
  · rw [hensured]
    have htrue : memory = true := by
      rw [← Bool.not_eq_false]
      exact fun hfalse => hmemory ⟨Nat.ne_of_lt hpos, hfalse⟩
    exact ⟨.valid hb.valid, hb.contents, hb.maxSizeBits, by rw [if_pos htrue]; exact hb.sizeBits⟩

/-- There is memory at the start. -/
theorem create_valid {maxSizeBits : Nat} (hmax : maxSizeBits ≤ 64) :
    (create maxSizeBits true).Valid ∧ (create maxSizeBits true).contents = [] := by
  obtain ⟨husable, hcontents, -, hbits⟩ := create_usable hmax true
  have hpos := getBitsForSize_pos maxSizeBits 0
  refine ⟨?_, hcontents⟩
  generalize create maxSizeBits true = b at husable hbits
  cases husable with
  | valid h => exact h
  | zeroed => exact absurd hbits (Nat.ne_of_lt hpos)

end RingBuffer

/-! ## Any use of it -/

/-- What the functions of a connection do with one of its buffers: `write` is
`ring_buffer_ensure_space` and `ring_buffer_put`, `receive` a round of `wl_connection_read`.  `memory`
says whether there is any for a new buffer. -/
inductive Call where
  | write (bytes : List UInt8) (memory : Bool)
  | receive (bytes : List UInt8) (memory : Bool)
  | copy (count : Nat)
  | gather
  | consume (count : Nat)

inductive Answer where
  | done
  | bytes (bytes : List UInt8)
  | refused (refusal : RingBuffer.Refusal)
  | full
  | tooMany
deriving DecidableEq

/-- Only when these parts are within the memory of the buffer. -/
def access {α : Type} (b : RingBuffer) (parts : List (Nat × Nat)) (x : α) : Option α :=
  if RingBuffer.Within parts b.data.length then some x else none

/-- `ring_buffer_ensure_space`, where `ring_buffer_allocate` copies the queue to the beginning of the
new memory. -/
def reserve (b : RingBuffer) (count : Nat) (memory : Bool) :
    Option (Except RingBuffer.Refusal RingBuffer) :=
  match b.ensureSpace count memory with
  | .error refusal => some (.error refusal)
  | .ok b' =>
      if b'.sizeBits = b.sizeBits then some (.ok b')
      else if b'.capacity < b.size then none
      else access b (b.parts b.tail b.size) (.ok b')

/-- There is no result when something outside the memory is read or written.  It would be `tooMany`
to copy or to consume more than there is, or for `recvmsg` to return more than fits into the parts
it is given. -/
def call (op : Call) (b : RingBuffer) : Option (Answer × RingBuffer) :=
  match op with
  | .write bytes memory => do
      match ← reserve b bytes.length memory with
      | .error refusal => some (.refused refusal, b)
      | .ok b => access b (b.parts b.head bytes.length) (.done, b.put bytes)
  | .receive bytes memory =>
      if b.isMaxSizeReached then some (.full, b)
      else do
        match ← reserve b 1 memory with
        | .error refusal => some (.refused refusal, b)
        | .ok b =>
            if b.capacity - b.size < bytes.length then some (.tooMany, b)
            else access b b.putIov (.done, b.receive bytes)
  | .copy count =>
      if b.size < count then some (.tooMany, b)
      else access b (b.parts b.tail count) (.bytes (b.copy count), b)
  | .gather =>
      if b.size = 0 then some (.bytes [], b) else access b b.getIov (.bytes b.gather, b)
  | .consume count =>
      if b.size < count then some (.tooMany, b) else some (.done, b.consume count)

/-- What a buffer is for.  How large its memory is matters only when that is to change and there is
none, when it is full, and for how much `recvmsg` may return at once. -/
structure Queue where
  sizeBits : Nat
  bytes : List UInt8

def Queue.create (maxSizeBits : Nat) (memory : Bool) : Queue :=
  ⟨if memory then RingBuffer.getBitsForSize maxSizeBits 0 else 0, []⟩

def queue (maxSizeBits : Nat) (op : Call) (q : Queue) : Answer × Queue :=
  match op with
  | .write more memory =>
      let sizeBits := RingBuffer.getBitsForSize maxSizeBits (q.bytes.length + more.length)
      if RingBuffer.limit maxSizeBits < q.bytes.length + more.length then (.refused .tooBig, q)
      else if q.sizeBits ≠ sizeBits ∧ memory = false then (.refused .noMemory, q)
      else (.done, ⟨sizeBits, q.bytes ++ more⟩)
  | .receive more memory =>
      let sizeBits := RingBuffer.getBitsForSize maxSizeBits (q.bytes.length + 1)
      if 2 ^ sizeBits ≤ q.bytes.length + 1 then (.full, q)
      else if q.sizeBits ≠ sizeBits ∧ memory = false then (.refused .noMemory, q)
      else if 2 ^ sizeBits - q.bytes.length < more.length then (.tooMany, ⟨sizeBits, q.bytes⟩)
      else (.done, ⟨sizeBits, q.bytes ++ more⟩)
  | .copy count => (if q.bytes.length < count then .tooMany else .bytes (q.bytes.take count), q)
  | .gather => (.bytes q.bytes, q)
  | .consume count =>
      if q.bytes.length < count then (.tooMany, q) else (.done, { q with bytes := q.bytes.drop count })

/-- The buffer holds these bytes. -/
structure Holds (maxSizeBits : Nat) (b : RingBuffer) (q : Queue) : Prop where
  usable : b.Usable
  contents : b.contents = q.bytes
  sizeBits : b.sizeBits = q.sizeBits
  max : b.maxSizeBits = maxSizeBits

section Call

variable {maxSizeBits : Nat} {b b' : RingBuffer} {q : Queue} {count : Nat} {memory : Bool}

theorem access_eq {α : Type} {parts : List (Nat × Nat)} (h : RingBuffer.Within parts b.data.length)
    (x : α) : access b parts x = some x := if_pos h

theorem reserve_error {refusal : RingBuffer.Refusal}
    (h : b.ensureSpace count memory = .error refusal) :
    reserve b count memory = some (.error refusal) := by
  rw [reserve, h]

theorem reserve_ok (hb : b.Usable) (h : b.ensureSpace count memory = .ok b')
    (hensured : RingBuffer.Ensured b count b') : reserve b count memory = some (.ok b') := by
  have hroom := hensured.room
  rw [reserve, h]
  dsimp only
  split
  · rfl
  · rw [if_neg (by omega)]
    exact access_eq hb.copy_all.2 _

/-- More bytes are in the queue, in memory that has been made large enough. -/
theorem Holds.put (h : Holds maxSizeBits b q) (hensured : RingBuffer.Ensured b count b')
    {more : List UInt8} (hroom : b'.size + more.length ≤ b'.capacity) :
    Holds maxSizeBits (b'.put more)
      ⟨RingBuffer.getBitsForSize maxSizeBits (q.bytes.length + count), q.bytes ++ more⟩ := by
  obtain ⟨husable, hcontents, -, rfl⟩ := h
  obtain ⟨hput, hqueue⟩ := hensured.valid.put more hroom
  have hlength : q.bytes.length = b.size := by rw [← hcontents, husable.length_contents]
  refine ⟨.valid hput, ?_, ?_, hensured.maxSizeBits⟩
  · rw [hqueue, hensured.contents, hcontents]
  · rw [hlength]
    exact hensured.sizeBits

theorem call_write (h : Holds maxSizeBits b q) (more : List UInt8) (memory : Bool) :
    ∃ b', call (.write more memory) b =
        some ((queue maxSizeBits (.write more memory) q).1, b') ∧
      Holds maxSizeBits b' (queue maxSizeBits (.write more memory) q).2 := by
  have hholds := h
  obtain ⟨husable, hcontents, hbits, rfl⟩ := h
  have hlength : q.bytes.length = b.size := by rw [← hcontents, husable.length_contents]
  rw [call, queue, hlength, ← hbits]
  rcases husable.ensureSpace more.length memory with
    ⟨hlimit, hrefused⟩ | ⟨hlimit, hmemory, hrefused⟩ | ⟨hlimit, hmemory, b', hsome, hensured⟩
  · rw [reserve_error hrefused, if_pos hlimit]
    exact ⟨b, rfl, hholds⟩
  · rw [reserve_error hrefused, if_neg (Nat.not_lt.mpr hlimit), if_pos hmemory]
    exact ⟨b, rfl, hholds⟩
  · have hsize := hensured.size husable
    have hroom := hensured.room
    have hwithin : RingBuffer.Within (b'.parts b'.head more.length) b'.capacity :=
      b'.parts_within b'.head (by omega)
    rw [← hensured.valid.length] at hwithin
    rw [reserve_ok husable hsome hensured, if_neg (Nat.not_lt.mpr hlimit), if_neg hmemory]
    refine ⟨_, access_eq hwithin _, ?_⟩
    have hput := hholds.put hensured (by rw [hsize]; exact hroom)
    rwa [hlength] at hput

theorem call_receive (h : Holds maxSizeBits b q) (more : List UInt8) (memory : Bool) :
    ∃ b', call (.receive more memory) b =
        some ((queue maxSizeBits (.receive more memory) q).1, b') ∧
      Holds maxSizeBits b' (queue maxSizeBits (.receive more memory) q).2 := by
  have hholds := h
  obtain ⟨husable, hcontents, hbits, rfl⟩ := h
  have hlength : q.bytes.length = b.size := by rw [← hcontents, husable.length_contents]
  rw [call, queue, hlength, ← hbits]
  by_cases hreached : 2 ^ RingBuffer.getBitsForSize b.maxSizeBits (b.size + 1) ≤ b.size + 1
  · have hfull : b.isMaxSizeReached = true := decide_eq_true hreached
    rw [if_pos hreached, if_pos hfull]
    exact ⟨b, rfl, hholds⟩
  · have hnot : b.isMaxSizeReached ≠ true := fun htrue => hreached (of_decide_eq_true htrue)
    rw [if_neg hreached, if_neg hnot]
    rcases husable.ensureSpace 1 memory with
      ⟨hlimit, -⟩ | ⟨-, hmemory, hrefused⟩ | ⟨-, hmemory, b', hsome, hensured⟩
    · have hbits := (RingBuffer.getBitsForSize_spec husable.maxSize (b.size + 1)).mpr hlimit
      exact absurd (Nat.le_of_lt hbits) hreached
    · rw [reserve_error hrefused, if_pos hmemory]
      exact ⟨b, rfl, hholds⟩
    · have hsize := hensured.size husable
      have hroom := hensured.room
      have hcapacity : b'.capacity = 2 ^ RingBuffer.getBitsForSize b.maxSizeBits (b.size + 1) :=
        congrArg (2 ^ ·) hensured.sizeBits
      rw [reserve_ok husable hsome hensured, if_neg hmemory, ← hcapacity, ← hsize]
      show ∃ b'', (if b'.capacity - b'.size < more.length then some (Answer.tooMany, b')
        else access b' b'.putIov (.done, b'.receive more)) = _ ∧ _
      split
      · exact ⟨b', rfl, .valid hensured.valid, hensured.contents.trans hcontents,
          by rw [hsize]; exact hensured.sizeBits, hensured.maxSizeBits⟩
      · next hfits =>
        have hwithin := b'.putIov_within
        rw [← hensured.valid.length] at hwithin
        have hput := hholds.put hensured
          (Nat.add_le_of_le_sub' hensured.valid.size_le (Nat.le_of_not_lt hfits))
        rw [hlength] at hput
        rw [access_eq hwithin, hensured.valid.receive_eq more (by omega) (by omega), hsize]
        exact ⟨_, rfl, hput⟩

theorem call_copy (h : Holds maxSizeBits b q) (count : Nat) :
    call (.copy count) b = some ((queue maxSizeBits (.copy count) q).1, b) := by
  obtain ⟨husable, hcontents, -, -⟩ := h
  have hlength : q.bytes.length = b.size := by rw [← hcontents, husable.length_contents]
  rw [call, queue, hlength, ← hcontents]
  split
  · rfl
  · next hle =>
    cases husable with
    | valid hvalid =>
        have hwithin : RingBuffer.Within (b.parts b.tail count) b.capacity :=
          b.parts_within b.tail (Nat.le_trans (Nat.le_of_not_lt hle) hvalid.size_le)
        rw [← hvalid.length] at hwithin
        rw [access_eq hwithin, hvalid.copy (Nat.le_of_not_lt hle)]
    | zeroed =>
        obtain rfl : count = 0 := Nat.le_zero.mp (Nat.le_of_not_lt hle)
        rfl

theorem call_gather (h : Holds maxSizeBits b q) :
    call .gather b = some ((queue maxSizeBits .gather q).1, b) := by
  obtain ⟨husable, hcontents, -, -⟩ := h
  have hlength := husable.length_contents
  rw [call, queue, ← hcontents]
  split
  · next hzero => rw [List.length_eq_zero_iff.mp (hlength.trans hzero)]
  · next hzero =>
    cases husable with
    | valid hvalid =>
        have hwithin := b.getIov_within
        rw [← hvalid.length] at hwithin
        rw [access_eq hwithin, hvalid.gather (Nat.pos_of_ne_zero hzero)]
    | zeroed => exact absurd rfl hzero

theorem call_consume (h : Holds maxSizeBits b q) (count : Nat) :
    ∃ b', call (.consume count) b = some ((queue maxSizeBits (.consume count) q).1, b') ∧
      Holds maxSizeBits b' (queue maxSizeBits (.consume count) q).2 := by
  have hholds := h
  obtain ⟨husable, hcontents, hbits, hmax⟩ := h
  have hlength : q.bytes.length = b.size := by rw [← hcontents, husable.length_contents]
  rw [call, queue, hlength]
  split
  · exact ⟨b, rfl, hholds⟩
  · next hle =>
    cases husable with
    | valid hvalid =>
        obtain ⟨hconsume, hqueue⟩ := hvalid.consume (Nat.le_of_not_lt hle)
        exact ⟨_, rfl, .valid hconsume, hqueue.trans (congrArg (List.drop count) hcontents), hbits, hmax⟩
    | zeroed =>
        obtain rfl : count = 0 := Nat.le_zero.mp (Nat.le_of_not_lt hle)
        exact ⟨_, rfl, hholds⟩

theorem call_eq (h : Holds maxSizeBits b q) (op : Call) :
    ∃ b', call op b = some ((queue maxSizeBits op q).1, b') ∧
      Holds maxSizeBits b' (queue maxSizeBits op q).2 := by
  cases op with
  | write more memory => exact call_write h more memory
  | receive more memory => exact call_receive h more memory
  | copy count => exact ⟨b, call_copy h count, h⟩
  | gather => exact ⟨b, call_gather h, h⟩
  | consume count => exact call_consume h count

end Call

/-- Whatever is done with a buffer, in any order, through every wrap around its end and every
reallocation to another size, nothing outside its memory is read or written, and its answers are
those of a queue of bytes. -/
theorem refines_queue (maxSizeBits : Nat) (hmax : maxSizeBits ≤ 64) (memory : Bool)
    (calls : List Call) :
    ∃ b, answers call calls (RingBuffer.create maxSizeBits memory) =
        some ((specified (queue maxSizeBits) calls (.create maxSizeBits memory)).1, b) ∧
      b.contents = (specified (queue maxSizeBits) calls (.create maxSizeBits memory)).2.bytes := by
  obtain ⟨husable, hcontents, hmaxBits, hbits⟩ := RingBuffer.create_usable hmax memory
  have hcall : ∀ op b q, True → Holds maxSizeBits b q →
      ∃ b', call op b = some ((queue maxSizeBits op q).1, b') ∧
        Holds maxSizeBits b' (queue maxSizeBits op q).2 := fun op _ _ _ h => call_eq h op
  have hstart : Holds maxSizeBits (RingBuffer.create maxSizeBits memory)
      (Queue.create maxSizeBits memory) := ⟨husable, hcontents, hbits, hmaxBits⟩
  obtain ⟨b, hanswers, hholds⟩ := answers_eq_specified (fun _ => True) (Holds maxSizeBits) hcall
    (fun _ _ => trivial) hstart
  exact ⟨b, hanswers, hholds.contents⟩

/-- A buffer of four bytes, which first has no memory, then wraps around and is full. -/
theorem refines_queue_fourBytes : ∃ b, answers call
    [.write [1] false, .receive [1, 2, 3] true, .copy 2, .consume 2, .write [4, 5] true, .gather,
      .write [6, 7] true] (RingBuffer.create 2 false) =
      some ([.refused .noMemory, .done, .bytes [1, 2], .done, .done, .bytes [3, 4, 5],
        .refused .tooBig], b) ∧ b.contents = [3, 4, 5] :=
  refines_queue 2 (by decide) false [.write [1] false, .receive [1, 2, 3] true, .copy 2, .consume 2,
    .write [4, 5] true, .gather, .write [6, 7] true]

end Stratus.Capture.WlRing
