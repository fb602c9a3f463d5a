import Stratus.Frontend.MediaFraming
import Stratus.Lib.Transition

/-! A `ChunkRingBuffer` that is used in any order is a queue of bytes. -/
namespace Stratus.Frontend.ChunkRingBuffer

open Stratus.Lib

variable {R : RingBuffer Bytes}

inductive Call where
  | push (chunk : Bytes)
  | byteLength
  | peek (length : Nat)
  | discard (length : Nat)
  | take (length : Nat)

inductive Answer where
  | done
  | length (n : Nat)
  | peeked (bytes : Option Bytes)
  | taken (bytes : Bytes)
  | thrown
deriving DecidableEq

def call (op : Call) (b : ChunkRingBuffer R) : Option (Answer × ChunkRingBuffer R) :=
  match op with
  | .push chunk => some (.done, b.push chunk)
  | .byteLength => some (.length b.byteLength, b)
  | .peek length => some (.peeked (b.peekOf length), b)
  | .discard length =>
      match b.discard length with
      | some b' => some (.done, b')
      | none => some (.thrown, b)
  | .take length =>
      match b.take length with
      | some (b', bytes) => some (.taken bytes, b')
      | none => some (.thrown, b)

/-- A length is at least one where a part of the head chunk is taken. -/
def Call.Allowed : Call → Prop
  | .take length => 1 ≤ length
  | _ => True

/-- What the buffer is for. -/
def byteQueue (op : Call) (queue : Bytes) : Answer × Bytes :=
  match op with
  | .push chunk => (.done, queue ++ chunk)
  | .byteLength => (.length queue.length, queue)
  | .peek length => (.peeked (if queue.length < length then none else some (queue.take length)), queue)
  | .discard length => if queue.length < length then (.thrown, queue) else (.done, queue.drop length)
  | .take length =>
      if queue.length < length then (.thrown, queue)
      else (.taken (queue.take length), queue.drop length)

variable {fifo : R.Fifo} {b : ChunkRingBuffer R}

/-- The check at the start is the only thing that fails. -/
theorem consume_eq_none (h : b.WellFormed fifo) (length : Nat) :
    b.consume length = none ↔ b.byteLength < length := by
  constructor
  · intro hnone
    by_contra hle
    rw [byteLength, h.buffered, Nat.not_lt] at hle
    obtain ⟨b', hb', -⟩ := consume_eq h hle
    rw [hb'] at hnone
    cases hnone
  · intro hlt
    exact if_pos hlt

theorem take_eq_none (h : b.WellFormed fifo) {length : Nat} (hlt : b.byteLength < length) :
    b.take length = none := by
  have hconsume := (consume_eq_none h length).mpr hlt
  unfold take
  cases R.peek b.chunks with
  | none => rfl
  | some chunk =>
      simp only [hconsume]
      split <;> rfl

theorem call_eq (h : b.WellFormed fifo) {op : Call} (hallowed : op.Allowed) :
    ∃ b', call op b = some ((byteQueue op (b.bytes fifo)).1, b') ∧
      b'.WellFormed fifo ∧ b'.bytes fifo = (byteQueue op (b.bytes fifo)).2 := by
  have hlength : b.byteLength = (b.bytes fifo).length := h.buffered
  cases op with
  | push chunk => exact ⟨_, rfl, h.push chunk⟩
  | byteLength => exact ⟨b, by rw [call, hlength]; rfl, h, rfl⟩
  | peek length => exact ⟨b, by rw [call, peekOf_eq h]; rfl, h, rfl⟩
  | discard length =>
      by_cases hlt : (b.bytes fifo).length < length
      · have hnone : b.discard length = none := by
          rw [discard, (consume_eq_none h length).mpr (hlength ▸ hlt)]
          rfl
        refine ⟨b, ?_, h, ?_⟩
        · simp only [call, byteQueue, hnone, if_pos hlt]
        · simp only [byteQueue, if_pos hlt]
      · obtain ⟨b', hb', hwf, hbytes, -⟩ := discard_eq h (Nat.not_lt.mp hlt)
        refine ⟨b', ?_, hwf, ?_⟩
        · simp only [call, byteQueue, hb', if_neg hlt]
        · simp only [byteQueue, if_neg hlt, hbytes]
  | take length =>
      by_cases hlt : (b.bytes fifo).length < length
      · have hnone := take_eq_none h (hlength ▸ hlt)
        refine ⟨b, ?_, h, ?_⟩
        · simp only [call, byteQueue, hnone, if_pos hlt]
        · simp only [byteQueue, if_pos hlt]
      · obtain ⟨b', hb', hwf, hbytes, -⟩ := take_eq h hallowed (Nat.not_lt.mp hlt)
        refine ⟨b', ?_, hwf, ?_⟩
        · simp only [call, byteQueue, hb', if_neg hlt]
        · simp only [byteQueue, if_neg hlt, hbytes]

/-- Calls on a buffer that holds some bytes. -/
theorem answers_eq (h : b.WellFormed fifo) {calls : List Call} (hcalls : ∀ op ∈ calls, op.Allowed) :
    ∃ b', answers call calls b = some ((specified byteQueue calls (b.bytes fifo)).1, b') ∧
      b'.WellFormed fifo ∧ b'.bytes fifo = (specified byteQueue calls (b.bytes fifo)).2 := by
  refine answers_eq_specified Call.Allowed
    (fun (b : ChunkRingBuffer R) queue => b.WellFormed fifo ∧ b.bytes fifo = queue) ?_ hcalls ⟨h, rfl⟩
  rintro op b _ hallowed ⟨h, rfl⟩
  exact call_eq h hallowed

/-- After any calls the buffer has answered as the queue of bytes does, and it holds the bytes of
that queue. -/
theorem refines_byteQueue (fifo : R.Fifo) (headerBytes : Nat) (calls : List Call)
    (hcalls : ∀ op ∈ calls, op.Allowed) :
    let queue := specified byteQueue calls []
    ∃ b, answers call calls (create R headerBytes) = some (queue.1, b) ∧
      b.bytes fifo = queue.2 ∧ b.byteLength = queue.2.length ∧
      (∀ chunk ∈ (fifo.items b.chunks).head?, b.headOffset < chunk.length) ∧
      (fifo.items b.chunks = [] → b.headOffset = 0) ∧
      (∀ length, b.consume length = none ↔ b.byteLength < length) ∧
      (∀ further : List Call, (∀ op ∈ further, op.Allowed) →
        (answers call further b.grow).map Prod.fst = (answers call further b).map Prod.fst) := by
  intro queue
  obtain ⟨b, hanswers, hwf, hbytes⟩ := answers_eq (.create fifo headerBytes) hcalls
  rw [bytes_create] at hanswers hbytes
  refine ⟨b, hanswers, hbytes, ?_, hwf.offset, hwf.empty, consume_eq_none hwf, ?_⟩
  · rw [byteLength, hwf.buffered, hbytes]
  · intro further hfurther
    obtain ⟨hgrow, hsame, -⟩ := hwf.grow
    obtain ⟨_, heq, -⟩ := answers_eq hgrow hfurther
    obtain ⟨_, heq', -⟩ := answers_eq hwf hfurther
    rw [heq, heq', hsame]
    rfl

/-- A packet that is cut in two, an empty chunk, and more than there is. -/
def cutPacket : List Call :=
  [.push [1, 2, 3], .push [], .push [4, 5], .peek 4, .take 2, .take 2, .discard 3, .byteLength,
    .discard 1, .peek 1]

theorem refines_byteQueue_cutPacket :
    ∃ b, answers call cutPacket (create (QueueRing.ringBuffer Bytes) 4) = some
        ([.done, .done, .done, .peeked (some [1, 2, 3, 4]), .taken [1, 2], .taken [3, 4], .thrown,
          .length 1, .done, .peeked none], b) ∧
      b.byteLength = 0 := by
  have hcalls : ∀ op ∈ cutPacket, op.Allowed := by
    simp [cutPacket, Call.Allowed]
  obtain ⟨b, hanswers, -, hlength, -⟩ := refines_byteQueue (QueueRing.fifo Bytes) 4 cutPacket hcalls
  exact ⟨b, hanswers, hlength⟩

end Stratus.Frontend.ChunkRingBuffer
