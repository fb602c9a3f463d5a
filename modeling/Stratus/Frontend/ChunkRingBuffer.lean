import Mathlib.Data.List.Basic
import Mathlib.Tactic.SplitIfs

/-! `chunkRingBuffer.ts`: the received chunks of a stream, read as one queue of bytes. -/
namespace Stratus.Frontend

abbrev Bytes := List UInt8

/-- The class `RingBuffer` of the package `ringbufferjs`, with the fields that the
code reads itself. -/
structure RingBuffer (α : Type) where
  Ring : Type
  create : Nat → Ring
  capacity : Ring → Nat
  isFull : Ring → Bool
  enq : Ring → α → Ring
  deq : Ring → Ring
  peek : Ring → Option α
  first : Ring → Nat
  size : Ring → Nat
  element : Ring → Nat → Option α

/-- It is a bounded queue, first in first out. -/
structure RingBuffer.Fifo {α : Type} (R : RingBuffer α) where
  items : R.Ring → List α
  items_create : ∀ n, items (R.create n) = []
  items_enq : ∀ r x, R.isFull r = false → items (R.enq r x) = items r ++ [x]
  items_deq : ∀ r, items r ≠ [] → items (R.deq r) = (items r).tail
  peek : ∀ r, R.peek r = (items r).head?
  isFull : ∀ r, R.isFull r = true ↔ R.capacity r ≤ (items r).length
  capacity_create : ∀ n, 0 < n → R.capacity (R.create n) = n
  capacity_enq : ∀ r x, R.capacity (R.enq r x) = R.capacity r
  capacity_deq : ∀ r, R.capacity (R.deq r) = R.capacity r
  size : ∀ r, R.size r = (items r).length
  first : ∀ r, 0 < R.capacity r → R.first r < R.capacity r
  element : ∀ r i, i < (items r).length →
    R.element r ((R.first r + i) % R.capacity r) = (items r)[i]?

structure ChunkRingBuffer (R : RingBuffer Bytes) where
  chunks : R.Ring
  bufferedBytes : Nat
  headOffset : Nat
  headerBytes : Nat

namespace ChunkRingBuffer

variable {R : RingBuffer Bytes}

def initialChunkCapacity : Nat := 128

def create (R : RingBuffer Bytes) (headerBytes : Nat) : ChunkRingBuffer R where
  chunks := R.create initialChunkCapacity
  bufferedBytes := 0
  headOffset := 0
  headerBytes := headerBytes

def byteLength (b : ChunkRingBuffer R) : Nat := b.bufferedBytes

/-- `chunk.subarray(start, start + length)`. -/
def subarray (chunk : Bytes) (start length : Nat) : Bytes := (chunk.drop start).take length

/-- The loop of `forEachChunk`; the visitor says whether to go on. -/
def visitChunks {β : Type} (chunks : R.Ring) (visitor : β → Bytes → Nat → β × Bool) :
    Nat → Nat → Nat → β → β
  | 0, _, _, acc => acc
  | remaining + 1, index, offset, acc =>
      match R.element chunks index with
      | none => acc
      | some chunk =>
          match visitor acc chunk offset with
          | (acc, true) =>
              visitChunks chunks visitor remaining ((index + 1) % R.capacity chunks) 0 acc
          | (acc, false) => acc

def forEachChunk {β : Type} (b : ChunkRingBuffer R) (visitor : β → Bytes → Nat → β × Bool)
    (acc : β) : β :=
  visitChunks b.chunks visitor (R.size b.chunks) (R.first b.chunks) b.headOffset acc

/-- What `copyInto` writes to its target, from the left. -/
def copyInto (b : ChunkRingBuffer R) (length : Nat) : Bytes :=
  b.forEachChunk (fun target chunk offset =>
    let toCopy := min (length - target.length) (chunk.length - offset)
    let target := target ++ subarray chunk offset toCopy
    (target, target.length < length)) []

/-- `peek()`, for as many bytes as a header has. -/
def peek (b : ChunkRingBuffer R) : Option Bytes :=
  if b.bufferedBytes < b.headerBytes then none else some (b.copyInto b.headerBytes)

/-- `peek(length)`. -/
def peekOf (b : ChunkRingBuffer R) (length : Nat) : Option Bytes :=
  if b.bufferedBytes < length then none else some (b.copyInto length)

theorem peek_eq_peekOf (b : ChunkRingBuffer R) : b.peek = b.peekOf b.headerBytes := rfl

def grow (b : ChunkRingBuffer R) : ChunkRingBuffer R :=
  { b with
    chunks := b.forEachChunk (fun next chunk offset => (R.enq next (chunk.drop offset), true))
      (R.create (R.capacity b.chunks * 2))
    headOffset := 0 }

def push (b : ChunkRingBuffer R) (chunk : Bytes) : ChunkRingBuffer R :=
  if chunk.length = 0 then b
  else
    let b := if R.isFull b.chunks then b.grow else b
    { b with
      chunks := R.enq b.chunks chunk
      bufferedBytes := b.bufferedBytes + chunk.length }

/-- The loop of `consume`, for a number of rounds; `none` when it throws or takes more.
The second result is what a target is filled with. -/
def consumeLoop : Nat → Nat → ChunkRingBuffer R → Bytes → Option (ChunkRingBuffer R × Bytes)
  | _, 0, b, target => some (b, target)
  | 0, _ + 1, _, _ => none
  | rounds + 1, remaining + 1, b, target =>
      match R.peek b.chunks with
      | none => none
      | some chunk =>
          let toCopy := min (remaining + 1) (chunk.length - b.headOffset)
          let target := target ++ subarray chunk b.headOffset toCopy
          let headOffset := b.headOffset + toCopy
          let done := chunk.length ≤ headOffset
          let b :=
            { b with
              chunks := if done then R.deq b.chunks else b.chunks
              bufferedBytes := b.bufferedBytes - toCopy
              headOffset := if done then 0 else headOffset }
          consumeLoop rounds (remaining + 1 - toCopy) b target

/-- Every round takes at least one byte, so `length` rounds are enough. -/
def consume (b : ChunkRingBuffer R) (length : Nat) : Option (ChunkRingBuffer R × Bytes) :=
  if b.bufferedBytes < length then none else consumeLoop length length b []

def discard (b : ChunkRingBuffer R) (length : Nat) : Option (ChunkRingBuffer R) :=
  (b.consume length).map Prod.fst

def take (b : ChunkRingBuffer R) (length : Nat) : Option (ChunkRingBuffer R × Bytes) :=
  match R.peek b.chunks with
  | none => none
  | some chunk =>
      if length ≤ chunk.length - b.headOffset then
        (b.consume length).map fun result => (result.1, subarray chunk b.headOffset length)
      else b.consume length

/-! ### A queue of bytes -/

section Refinement

variable (fifo : R.Fifo)

/-- The bytes in the buffer. -/
def bytes (b : ChunkRingBuffer R) : Bytes := (fifo.items b.chunks).flatten.drop b.headOffset

/-- The head of the queue is a chunk of which something is left. -/
structure WellFormed (b : ChunkRingBuffer R) : Prop where
  buffered : b.bufferedBytes = (b.bytes fifo).length
  nonempty : ∀ chunk ∈ fifo.items b.chunks, chunk ≠ []
  offset : ∀ chunk ∈ (fifo.items b.chunks).head?, b.headOffset < chunk.length
  empty : fifo.items b.chunks = [] → b.headOffset = 0
  capacity : (fifo.items b.chunks).length ≤ R.capacity b.chunks
  positive : 0 < R.capacity b.chunks

variable {fifo} {b : ChunkRingBuffer R}

theorem WellFormed.create (fifo : R.Fifo) (headerBytes : Nat) :
    (create R headerBytes).WellFormed fifo := by
  have hitems : fifo.items (ChunkRingBuffer.create R headerBytes).chunks = [] := fifo.items_create _
  have hcapacity : R.capacity (ChunkRingBuffer.create R headerBytes).chunks = initialChunkCapacity :=
    fifo.capacity_create _ (by decide)
  constructor
  · rw [bytes, hitems]
    rfl
  · rw [hitems]
    exact fun chunk hchunk => absurd hchunk List.not_mem_nil
  · rw [hitems]
    exact fun chunk hchunk => absurd hchunk (by simp)
  · exact fun _ => rfl
  · rw [hitems]
    exact Nat.zero_le _
  · rw [hcapacity]
    decide

theorem bytes_create (fifo : R.Fifo) (headerBytes : Nat) : (create R headerBytes).bytes fifo = [] := by
  have hitems : fifo.items (ChunkRingBuffer.create R headerBytes).chunks = [] := fifo.items_create _
  rw [bytes, hitems]
  rfl

/-- The bytes of the head chunk come first. -/
theorem bytes_cons {chunk : Bytes} {rest : List Bytes} (hitems : fifo.items b.chunks = chunk :: rest)
    (hle : b.headOffset ≤ chunk.length) :
    b.bytes fifo = chunk.drop b.headOffset ++ rest.flatten := by
  rw [bytes, hitems, List.flatten_cons, List.drop_append_of_le_length hle]

/-! ### Walking over the chunks -/

/-- `forEachChunk` on the queue as a list. -/
def visitList {β : Type} (visitor : β → Bytes → Nat → β × Bool) : Nat → List Bytes → β → β
  | _, [], acc => acc
  | offset, chunk :: rest, acc =>
      match visitor acc chunk offset with
      | (acc, true) => visitList visitor 0 rest acc
      | (acc, false) => acc

theorem visitChunks_eq {β : Type} (fifo : R.Fifo) (visitor : β → Bytes → Nat → β × Bool)
    (chunks : R.Ring) (remaining k offset : Nat) (acc : β)
    (hremaining : remaining + k = (fifo.items chunks).length) :
    visitChunks chunks visitor remaining ((R.first chunks + k) % R.capacity chunks) offset acc =
      visitList visitor offset ((fifo.items chunks).drop k) acc := by
  induction remaining generalizing k offset acc with
  | zero =>
      rw [List.drop_eq_nil_of_le (by omega)]
      rfl
  | succ remaining ih =>
      have hk : k < (fifo.items chunks).length := by omega
      have hnext : ((R.first chunks + k) % R.capacity chunks + 1) % R.capacity chunks =
          (R.first chunks + (k + 1)) % R.capacity chunks := by
        rw [Nat.mod_add_mod, Nat.add_assoc]
      rw [List.drop_eq_getElem_cons hk]
      unfold visitChunks visitList
      simp only [fifo.element chunks k hk, List.getElem?_eq_getElem hk, hnext]
      split
      · exact ih (k + 1) 0 _ (by omega)
      · rfl

theorem forEachChunk_eq {β : Type} (h : b.WellFormed fifo)
    (visitor : β → Bytes → Nat → β × Bool) (acc : β) :
    b.forEachChunk visitor acc = visitList visitor b.headOffset (fifo.items b.chunks) acc := by
  have hfirst : R.first b.chunks = (R.first b.chunks + 0) % R.capacity b.chunks := by
    rw [Nat.add_zero, Nat.mod_eq_of_lt (fifo.first _ h.positive)]
  unfold forEachChunk
  rw [hfirst, fifo.size]
  exact visitChunks_eq fifo visitor b.chunks _ 0 b.headOffset acc rfl

/-- Copying goes on until the target has its length. -/
theorem visitList_copy (length offset : Nat) (chunks : List Bytes) (target : Bytes)
    (htarget : target.length ≤ length) (hoffset : ∀ chunk ∈ chunks.head?, offset ≤ chunk.length) :
    visitList (fun target chunk offset =>
      let toCopy := min (length - target.length) (chunk.length - offset)
      let target := target ++ subarray chunk offset toCopy
      (target, target.length < length)) offset chunks target =
      target ++ (chunks.flatten.drop offset).take (length - target.length) := by
  induction chunks generalizing offset target with
  | nil => simp [visitList]
  | cons chunk rest ih =>
      have hle : offset ≤ chunk.length := hoffset chunk rfl
      have hlength : (subarray chunk offset (min (length - target.length) (chunk.length - offset))).length =
          min (length - target.length) (chunk.length - offset) := by
        rw [subarray, List.length_take, List.length_drop]
        omega
      rw [List.flatten_cons, List.drop_append_of_le_length hle]
      unfold visitList
      dsimp only
      by_cases hfull : length - target.length ≤ chunk.length - offset
      · -- the target is full
        have hstop : ¬ (target ++ subarray chunk offset
            (min (length - target.length) (chunk.length - offset))).length < length := by
          rw [List.length_append, hlength]
          omega
        simp only [hstop, decide_false]
        rw [Nat.min_eq_left hfull, subarray,
          List.take_append_of_le_length (by rw [List.length_drop]; omega)]
      · have hgo : (target ++ subarray chunk offset
            (min (length - target.length) (chunk.length - offset))).length < length := by
          rw [List.length_append, hlength]
          omega
        simp only [hgo, decide_true]
        rw [ih 0 _ (Nat.le_of_lt hgo) (fun _ _ => Nat.zero_le _), Nat.min_eq_right (by omega), List.drop_zero,
          List.append_assoc]
        congr 1
        have hall : subarray chunk offset (chunk.length - offset) = chunk.drop offset := by
          rw [subarray, List.take_of_length_le (Nat.le_of_eq List.length_drop)]
        rw [hall, List.take_append, List.length_append, List.length_drop,
          List.take_of_length_le (l := chunk.drop offset) (by rw [List.length_drop]; omega)]
        congr 2
        omega

theorem WellFormed.offset_le (h : b.WellFormed fifo) :
    ∀ chunk ∈ (fifo.items b.chunks).head?, b.headOffset ≤ chunk.length :=
  fun chunk hchunk => Nat.le_of_lt (h.offset chunk hchunk)

theorem peekOf_eq (h : b.WellFormed fifo) (length : Nat) : b.peekOf length =
    if (b.bytes fifo).length < length then none else some ((b.bytes fifo).take length) := by
  unfold peekOf
  rw [h.buffered]
  split
  · rfl
  · congr 1
    unfold copyInto
    rw [forEachChunk_eq h, visitList_copy _ _ _ _ (Nat.zero_le _) h.offset_le]
    rfl

theorem peek_eq (h : b.WellFormed fifo) : b.peek =
    if (b.bytes fifo).length < b.headerBytes then none
    else some ((b.bytes fifo).take b.headerBytes) := by
  rw [peek_eq_peekOf, peekOf_eq h]

/-! ### Adding and removing bytes -/

/-- The chunks without what has been read of the first one. -/
def unread (offset : Nat) : List Bytes → List Bytes
  | [] => []
  | chunk :: rest => chunk.drop offset :: rest

theorem flatten_unread {offset : Nat} {chunks : List Bytes}
    (hoffset : ∀ chunk ∈ chunks.head?, offset ≤ chunk.length) :
    (unread offset chunks).flatten = chunks.flatten.drop offset := by
  cases chunks with
  | nil => exact List.drop_nil.symm
  | cons chunk rest =>
      rw [List.flatten_cons, List.drop_append_of_le_length (hoffset chunk rfl)]
      rfl

/-- All chunks are put into a queue with room for them. -/
theorem visitList_enq (fifo : R.Fifo) (offset : Nat) (chunks : List Bytes) (next : R.Ring)
    (hroom : (fifo.items next).length + chunks.length ≤ R.capacity next) :
    let result := visitList (fun next chunk offset => (R.enq next (chunk.drop offset), true)) offset
      chunks next
    R.capacity result = R.capacity next ∧
      fifo.items result = fifo.items next ++ unread offset chunks := by
  induction chunks generalizing offset next with
  | nil => exact ⟨rfl, (List.append_nil _).symm⟩
  | cons chunk rest ih =>
      rw [List.length_cons] at hroom
      have hnotFull : R.isFull next = false := by
        rw [Bool.eq_false_iff, ne_eq, fifo.isFull]
        omega
      have hitems := fifo.items_enq next (chunk.drop offset) hnotFull
      have hcapacity := fifo.capacity_enq next (chunk.drop offset)
      obtain ⟨hcapacity', hitems'⟩ := ih 0 (R.enq next (chunk.drop offset)) (by
        rw [hitems, hcapacity, List.length_append, List.length_singleton]
        omega)
      refine ⟨hcapacity'.trans hcapacity, ?_⟩
      change fifo.items (visitList _ 0 rest (R.enq next (chunk.drop offset))) = _
      rw [hitems', hitems, List.append_assoc]
      cases rest <;> rfl

/-- Afterwards there is room for more. -/
theorem WellFormed.grow (h : b.WellFormed fifo) : b.grow.WellFormed fifo ∧
    b.grow.bytes fifo = b.bytes fifo ∧ R.isFull b.grow.chunks = false := by
  have hpositive := h.positive
  have hle := h.capacity
  have hroom : (fifo.items (R.create (R.capacity b.chunks * 2))).length +
      (fifo.items b.chunks).length ≤ R.capacity (R.create (R.capacity b.chunks * 2)) := by
    rw [fifo.items_create, fifo.capacity_create _ (by omega), List.length_nil]
    omega
  obtain ⟨hcapacity, hitems⟩ := visitList_enq fifo b.headOffset (fifo.items b.chunks)
    (R.create (R.capacity b.chunks * 2)) hroom
  have hchunks : b.grow.chunks = visitList _ b.headOffset (fifo.items b.chunks) _ :=
    forEachChunk_eq h _ _
  rw [← hchunks, fifo.capacity_create _ (by omega)] at hcapacity
  rw [← hchunks, fifo.items_create, List.nil_append] at hitems
  have hlength : (unread b.headOffset (fifo.items b.chunks)).length = (fifo.items b.chunks).length := by
    cases fifo.items b.chunks <;> rfl
  have hbytes : b.grow.bytes fifo = b.bytes fifo := by
    rw [bytes, hitems]
    exact flatten_unread h.offset_le
  have hnonempty : ∀ chunk ∈ fifo.items b.grow.chunks, chunk ≠ [] := by
    intro chunk hchunk
    rw [hitems] at hchunk
    cases hold : fifo.items b.chunks with
    | nil => simp [hold, unread] at hchunk
    | cons head rest =>
        rw [hold, unread, List.mem_cons] at hchunk
        rcases hchunk with rfl | hchunk
        · have := h.offset head (by rw [hold]; rfl)
          rw [ne_eq, List.drop_eq_nil_iff]
          omega
        · exact h.nonempty chunk (by rw [hold]; exact List.mem_cons_of_mem _ hchunk)
  refine ⟨⟨?_, hnonempty, ?_, fun _ => rfl, ?_, ?_⟩, hbytes, ?_⟩
  · rw [hbytes]
    exact h.buffered
  · intro chunk hchunk
    exact List.length_pos_iff.mpr (hnonempty chunk (List.mem_of_mem_head? hchunk))
  · rw [hitems, hlength, hcapacity]
    omega
  · rw [hcapacity]
    omega
  · rw [Bool.eq_false_iff, ne_eq, fifo.isFull, hitems, hlength, hcapacity]
    omega

theorem WellFormed.enq (h : b.WellFormed fifo) {chunk : Bytes} (hchunk : chunk ≠ [])
    (hnotFull : R.isFull b.chunks = false) :
    WellFormed fifo
      { b with
        chunks := R.enq b.chunks chunk
        bufferedBytes := b.bufferedBytes + chunk.length } ∧
    bytes fifo
      { b with
        chunks := R.enq b.chunks chunk
        bufferedBytes := b.bufferedBytes + chunk.length } = b.bytes fifo ++ chunk := by
  have hitems := fifo.items_enq b.chunks chunk hnotFull
  have hroom : (fifo.items b.chunks).length < R.capacity b.chunks := by
    rw [Bool.eq_false_iff, ne_eq, fifo.isFull] at hnotFull
    omega
  have hle : b.headOffset ≤ (fifo.items b.chunks).flatten.length := by
    cases hold : fifo.items b.chunks with
    | nil => rw [h.empty hold]; exact Nat.zero_le _
    | cons head rest =>
        have := h.offset_le head (by rw [hold]; rfl)
        rw [List.flatten_cons, List.length_append]
        omega
  have hbytes : (fifo.items (R.enq b.chunks chunk)).flatten.drop b.headOffset = b.bytes fifo ++ chunk := by
    rw [hitems, List.flatten_append, List.flatten_singleton, List.drop_append_of_le_length hle]
    rfl
  refine ⟨⟨?_, ?_, ?_, ?_, ?_, ?_⟩, hbytes⟩
  · change b.bufferedBytes + chunk.length = (List.drop _ _).length
    rw [hbytes, List.length_append, h.buffered]
  · intro other hother
    change other ∈ fifo.items (R.enq b.chunks chunk) at hother
    rw [hitems, List.mem_append, List.mem_singleton] at hother
    rcases hother with hother | rfl
    · exact h.nonempty other hother
    · exact hchunk
  · intro head hhead
    change head ∈ (fifo.items (R.enq b.chunks chunk)).head? at hhead
    change b.headOffset < head.length
    rw [hitems] at hhead
    cases hold : fifo.items b.chunks with
    | nil =>
        rw [hold] at hhead
        cases hhead
        rw [h.empty hold]
        exact List.length_pos_iff.mpr hchunk
    | cons first rest =>
        rw [hold] at hhead
        exact h.offset head (by rw [hold]; exact hhead)
  · intro hnil
    change fifo.items (R.enq b.chunks chunk) = [] at hnil
    rw [hitems] at hnil
    simp at hnil
  · change (fifo.items (R.enq b.chunks chunk)).length ≤ R.capacity (R.enq b.chunks chunk)
    rw [hitems, fifo.capacity_enq, List.length_append, List.length_singleton]
    omega
  · change 0 < R.capacity (R.enq b.chunks chunk)
    rw [fifo.capacity_enq]
    exact h.positive

/-- `push` appends. -/
theorem WellFormed.push (h : b.WellFormed fifo) (chunk : Bytes) :
    (b.push chunk).WellFormed fifo ∧ (b.push chunk).bytes fifo = b.bytes fifo ++ chunk := by
  unfold ChunkRingBuffer.push
  split
  · next hzero =>
    rw [List.eq_nil_of_length_eq_zero hzero, List.append_nil]
    exact ⟨h, rfl⟩
  · next hpos =>
    have hchunk : chunk ≠ [] := fun hnil => hpos (by rw [hnil]; rfl)
    dsimp only
    split
    · obtain ⟨hgrow, hbytes, hnotFull⟩ := h.grow
      rw [← hbytes]
      exact hgrow.enq hchunk hnotFull
    · next hnotFull => exact h.enq hchunk (Bool.eq_false_iff.mpr hnotFull)

theorem headerBytes_push (b : ChunkRingBuffer R) (chunk : Bytes) :
    (b.push chunk).headerBytes = b.headerBytes := by
  unfold ChunkRingBuffer.push
  dsimp only
  split_ifs <;> rfl

/-- `n` bytes of the head chunk are read. -/
theorem WellFormed.advance (h : b.WellFormed fifo) {chunk : Bytes} {rest : List Bytes}
    (hitems : fifo.items b.chunks = chunk :: rest) {n : Nat} (hn : n ≤ chunk.length - b.headOffset) :
    let b' : ChunkRingBuffer R :=
      { b with
        chunks := if chunk.length ≤ b.headOffset + n then R.deq b.chunks else b.chunks
        bufferedBytes := b.bufferedBytes - n
        headOffset := if chunk.length ≤ b.headOffset + n then 0 else b.headOffset + n }
    b'.WellFormed fifo ∧ b'.bytes fifo = (b.bytes fifo).drop n := by
  have hlt : b.headOffset < chunk.length := h.offset chunk (by rw [hitems]; rfl)
  have hold : b.bytes fifo = chunk.drop b.headOffset ++ rest.flatten := bytes_cons hitems (Nat.le_of_lt hlt)
  have hbuffered : b.bufferedBytes - n = ((b.bytes fifo).drop n).length := by
    rw [List.length_drop, h.buffered]
  have hnonempty : ∀ c ∈ chunk :: rest, c ≠ [] := by
    rw [← hitems]
    exact h.nonempty
  have hcapacity := h.capacity
  rw [hitems, List.length_cons] at hcapacity
  dsimp only
  by_cases hdone : chunk.length ≤ b.headOffset + n
  · simp only [hdone, if_true]
    have hdeq : fifo.items (R.deq b.chunks) = rest := by
      rw [fifo.items_deq _ (by rw [hitems]; exact List.cons_ne_nil _ _), hitems]
      rfl
    have hbytes : (fifo.items (R.deq b.chunks)).flatten.drop 0 = (b.bytes fifo).drop n := by
      rw [hdeq, hold, List.drop_zero, show n = (chunk.drop b.headOffset).length by
        rw [List.length_drop]; omega, List.drop_left]
    refine ⟨⟨?_, ?_, ?_, fun _ => rfl, ?_, ?_⟩, hbytes⟩
    · exact hbuffered.trans (congrArg List.length hbytes.symm)
    · intro c hc
      exact hnonempty c (List.mem_cons_of_mem _ (hdeq ▸ hc))
    · intro c hc
      refine List.length_pos_iff.mpr (hnonempty c (List.mem_cons_of_mem _ ?_))
      exact List.mem_of_mem_head? (hdeq ▸ hc)
    · change (fifo.items (R.deq b.chunks)).length ≤ R.capacity (R.deq b.chunks)
      rw [hdeq, fifo.capacity_deq]
      omega
    · change 0 < R.capacity (R.deq b.chunks)
      rw [fifo.capacity_deq]
      exact h.positive
  · simp only [hdone, if_false]
    have hbytes : (fifo.items b.chunks).flatten.drop (b.headOffset + n) = (b.bytes fifo).drop n :=
      List.drop_drop.symm
    refine ⟨⟨?_, h.nonempty, ?_, ?_, h.capacity, h.positive⟩, hbytes⟩
    · exact hbuffered.trans (congrArg List.length hbytes.symm)
    · intro c hc
      rw [hitems] at hc
      cases hc
      change b.headOffset + n < chunk.length
      omega
    · intro hnil
      rw [hitems] at hnil
      cases hnil

theorem consumeLoop_eq (rounds remaining : Nat) (b : ChunkRingBuffer R) (target : Bytes)
    (h : b.WellFormed fifo) (hremaining : remaining ≤ (b.bytes fifo).length)
    (hrounds : remaining ≤ rounds) :
    ∃ b', consumeLoop rounds remaining b target =
        some (b', target ++ (b.bytes fifo).take remaining) ∧
      b'.WellFormed fifo ∧ b'.bytes fifo = (b.bytes fifo).drop remaining ∧
      b'.headerBytes = b.headerBytes := by
  induction rounds generalizing remaining b target with
  | zero =>
      obtain rfl : remaining = 0 := by omega
      exact ⟨b, by simp [consumeLoop], h, rfl, rfl⟩
  | succ rounds ih =>
      cases remaining with
      | zero => exact ⟨b, by simp [consumeLoop], h, rfl, rfl⟩
      | succ remaining =>
          cases hitems : fifo.items b.chunks with
          | nil =>
              rw [bytes, hitems] at hremaining
              simp at hremaining
          | cons chunk rest =>
              have hlt : b.headOffset < chunk.length := h.offset chunk (by rw [hitems]; rfl)
              have hold := bytes_cons hitems (Nat.le_of_lt hlt)
              have hpeek : R.peek b.chunks = some chunk := by
                rw [fifo.peek, hitems]
                rfl
              have hmin : min (remaining + 1) (chunk.length - b.headOffset) ≤
                  chunk.length - b.headOffset := Nat.min_le_right _ _
              obtain ⟨hwf, hbytes⟩ := h.advance hitems hmin
              have hsub : subarray chunk b.headOffset
                    (min (remaining + 1) (chunk.length - b.headOffset)) =
                  (b.bytes fifo).take (min (remaining + 1) (chunk.length - b.headOffset)) := by
                rw [hold, subarray, List.take_append_of_le_length (by rw [List.length_drop]; omega)]
              obtain ⟨b', hb', hwf', hbytes', hheader⟩ := ih
                (remaining + 1 - min (remaining + 1) (chunk.length - b.headOffset)) _
                (target ++ subarray chunk b.headOffset
                  (min (remaining + 1) (chunk.length - b.headOffset))) hwf
                (by rw [hbytes, List.length_drop]; omega) (by omega)
              refine ⟨b', ?_, hwf', ?_, hheader⟩
              · unfold consumeLoop
                simp only [hpeek]
                rw [hb', hbytes, hsub, List.append_assoc]
                congr 3
                rw [← List.take_add]
                congr 1
                omega
              · rw [hbytes', hbytes, List.drop_drop]
                congr 1
                omega

/-- `consume` takes bytes off the front. -/
theorem consume_eq (h : b.WellFormed fifo) {length : Nat} (hle : length ≤ (b.bytes fifo).length) :
    ∃ b', b.consume length = some (b', (b.bytes fifo).take length) ∧ b'.WellFormed fifo ∧
      b'.bytes fifo = (b.bytes fifo).drop length ∧ b'.headerBytes = b.headerBytes := by
  unfold consume
  rw [if_neg (by rw [h.buffered]; omega)]
  exact consumeLoop_eq length length b [] h hle (Nat.le_refl _)

theorem discard_eq (h : b.WellFormed fifo) {length : Nat} (hle : length ≤ (b.bytes fifo).length) :
    ∃ b', b.discard length = some b' ∧ b'.WellFormed fifo ∧
      b'.bytes fifo = (b.bytes fifo).drop length ∧ b'.headerBytes = b.headerBytes := by
  obtain ⟨b', hb', hrest⟩ := consume_eq h hle
  exact ⟨b', by rw [discard, hb']; rfl, hrest⟩

/-- `take` returns the same bytes, whether they are a view or a copy. -/
theorem take_eq (h : b.WellFormed fifo) {length : Nat} (hpos : 0 < length)
    (hle : length ≤ (b.bytes fifo).length) :
    ∃ b', b.take length = some (b', (b.bytes fifo).take length) ∧ b'.WellFormed fifo ∧
      b'.bytes fifo = (b.bytes fifo).drop length ∧ b'.headerBytes = b.headerBytes := by
  obtain ⟨b', hb', hrest⟩ := consume_eq h hle
  refine ⟨b', ?_, hrest⟩
  cases hitems : fifo.items b.chunks with
  | nil =>
      rw [bytes, hitems] at hle
      simp at hle
      omega
  | cons chunk rest =>
      have hlt : b.headOffset < chunk.length := h.offset chunk (by rw [hitems]; rfl)
      have hpeek : R.peek b.chunks = some chunk := by
        rw [fifo.peek, hitems]
        rfl
      unfold take
      simp only [hpeek, hb']
      split
      · next hview =>
        rw [bytes_cons hitems (Nat.le_of_lt hlt),
          List.take_append_of_le_length (by rw [List.length_drop]; omega)]
        rfl
      · rfl

/-! The bytes in front are known. -/

theorem discard_front (h : b.WellFormed fifo) {front rest : Bytes}
    (hbytes : b.bytes fifo = front ++ rest) :
    ∃ b', b.discard front.length = some b' ∧ b'.WellFormed fifo ∧ b'.bytes fifo = rest ∧
      b'.headerBytes = b.headerBytes := by
  have hle : front.length ≤ (b.bytes fifo).length := by
    rw [hbytes, List.length_append]
    omega
  obtain ⟨b', hb', hwf, hrest, hheader⟩ := discard_eq h hle
  rw [hbytes, List.drop_left] at hrest
  exact ⟨b', hb', hwf, hrest, hheader⟩

theorem take_front (h : b.WellFormed fifo) {front rest : Bytes}
    (hbytes : b.bytes fifo = front ++ rest) (hfront : front ≠ []) :
    ∃ b', b.take front.length = some (b', front) ∧ b'.WellFormed fifo ∧ b'.bytes fifo = rest ∧
      b'.headerBytes = b.headerBytes := by
  have hle : front.length ≤ (b.bytes fifo).length := by
    rw [hbytes, List.length_append]
    omega
  obtain ⟨b', hb', hwf, hrest, hheader⟩ := take_eq h (List.length_pos_iff.mpr hfront) hle
  rw [hbytes, List.take_left] at hb'
  rw [hbytes, List.drop_left] at hrest
  exact ⟨b', hb', hwf, hrest, hheader⟩

end Refinement

end ChunkRingBuffer

end Stratus.Frontend
