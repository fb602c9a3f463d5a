import Stratus.Lib.Splice
import Stratus.Frontend.MediaStreams

/-! `transportMediaStream.ts` with any limits and any chunks: a stream is posted to the worker in
batches, and the buffers in them are transferred. -/
namespace Stratus.Frontend

open Stratus.Lib

namespace ChunkBatches

/-! ### Chunks -/

/-- A buffer that came with a chunk, or one that was made here. -/
inductive BufferId where
  | given (n : Nat)
  | copied (n : Nat)
deriving DecidableEq

structure ArrayBuffer where
  id : BufferId
  bytes : Bytes
deriving DecidableEq

/-- A `Uint8Array`: a part of a buffer, which holds `bytes` and may be a shared one. -/
structure Chunk where
  buffer : Nat
  bytes : Bytes
  shared : Bool
  byteOffset : Nat
  byteLength : Nat
  inside : byteOffset + byteLength ≤ bytes.length

namespace Chunk

def view (value : Chunk) : Bytes := slice value.bytes value.byteOffset value.byteLength

def Whole (value : Chunk) : Prop :=
  value.shared = false ∧ value.byteOffset = 0 ∧ value.byteLength = value.bytes.length

instance (value : Chunk) : Decidable value.Whole := inferInstanceAs (Decidable (_ ∧ _ ∧ _))

/-- The buffer that is given away with the chunk. -/
def transferred (value : Chunk) : Option Nat :=
  if value.Whole ∧ value.byteLength ≠ 0 then some value.buffer else none

end Chunk

def toTransferableBuffer (copies : Nat) (value : Chunk) : ArrayBuffer :=
  if value.Whole then ⟨.given value.buffer, value.bytes⟩ else ⟨.copied copies, value.view⟩

/-! ### The stream -/

/-- What a length is compared to: it never reaches `NaN` or infinity, and a number between two
integers is as good as the greater. -/
inductive Limit where
  | never
  | atLeast (n : Int)

def Limit.Reached (length : Nat) : Limit → Prop
  | .never => False
  | .atLeast n => n ≤ length

instance (length : Nat) (limit : Limit) : Decidable (limit.Reached length) := by
  cases limit with
  | never => exact instDecidableFalse
  | atLeast n => exact inferInstanceAs (Decidable (n ≤ (length : Int)))

structure Options where
  maxChunkBatchCount : Option Limit
  maxChunkBatchBytes : Option Limit

namespace Options

def countLimit (options : Options) : Limit :=
  options.maxChunkBatchCount.getD (.atLeast defaultMaxChunkBatchCount)

def bytesLimit (options : Options) : Limit :=
  options.maxChunkBatchBytes.getD (.atLeast defaultMaxChunkBatchBytes)

end Options

/-- `timers` are those that the browser has, `failed` says that `postMessage` has thrown, and
`waiting` are the readers of further calls of `start`.  `chunks` are what `start` was given and has
read. -/
structure State where
  reader : Option Nat
  pendingChunks : List ArrayBuffer
  pendingChunkBytes : Nat
  flushTimeoutId : Option Nat
  timers : List Nat
  nextTimer : Nat
  copies : Nat
  posted : List (List ArrayBuffer)
  failed : Bool
  waiting : List Nat
  chunks : List Chunk

namespace State

def create : State where
  reader := none
  pendingChunks := []
  pendingChunkBytes := 0
  flushTimeoutId := none
  timers := []
  nextTimer := 1
  copies := 0
  posted := []
  failed := false
  waiting := []
  chunks := []

def clearFlushTimer (s : State) : State :=
  match s.flushTimeoutId with
  | none => s
  | some id => { s with timers := s.timers.erase id, flushTimeoutId := none }

/-- The buffers of the chunks that have been queued. -/
def buffers (s : State) : List ArrayBuffer := s.posted.flatten ++ s.pendingChunks

/-- A buffer can be transferred once. -/
def Transferable (s : State) : Prop := (s.buffers.map ArrayBuffer.id).Nodup

instance (s : State) : Decidable s.Transferable := inferInstanceAs (Decidable (List.Nodup _))

def flushPendingChunks (s : State) : State :=
  if s.pendingChunks = [] then s
  else if s.Transferable then
    { s with pendingChunks := [], pendingChunkBytes := 0, posted := s.posted ++ [s.pendingChunks] }
  else { s with pendingChunks := [], pendingChunkBytes := 0, failed := true }

def push (s : State) (chunk : ArrayBuffer) : State :=
  { s with
    pendingChunks := s.pendingChunks ++ [chunk]
    pendingChunkBytes := s.pendingChunkBytes + chunk.bytes.length
    copies := s.copies + 1 }

def setFlushTimer (s : State) : State :=
  { s with
    flushTimeoutId := some s.nextTimer
    timers := s.timers ++ [s.nextTimer]
    nextTimer := s.nextTimer + 1 }

def queueChunk (options : Options) (s : State) (value : Chunk) : State :=
  if value.byteLength = 0 then s
  else
    let queued := s.push (toTransferableBuffer s.copies value)
    if options.countLimit.Reached queued.pendingChunks.length ∨
        options.bytesLimit.Reached queued.pendingChunkBytes then
      queued.clearFlushTimer.flushPendingChunks
    else if queued.flushTimeoutId = none then queued.setFlushTimer
    else queued

/-- The `finally` of `start`. -/
def finish (s : State) : State :=
  { s.clearFlushTimer.flushPendingChunks with reader := none }

/-- The callback of the timer. -/
def flushTimer (s : State) (id : Nat) : State :=
  flushPendingChunks { s with timers := s.timers.erase id, flushTimeoutId := none }

/-- A chunk comes, with the reader that is used from now on. -/
def give (s : State) (reader : Option Nat) (value : Chunk) : State :=
  { s with reader := reader, chunks := s.chunks ++ [value] }

end State

/-- What happens between two waits: `start` is called, a further call of it is done, the reader
answers, a timer fires, or `close` is called. -/
inductive Step where
  | start (reader : Nat) (initialChunk : Chunk)
  | refused (reader : Nat)
  | read (value : Chunk)
  | done
  | error
  | timer (id : Nat)
  | close

/-- `none` where the step cannot be taken. -/
def State.next (options : Options) (s : State) (step : Step) : Option State :=
  if s.failed then none
  else
    match step with
    | .start reader initialChunk =>
        if s.reader = none then some ((s.give (some reader) initialChunk).queueChunk options initialChunk)
        else some { s with waiting := s.waiting ++ [reader] }
    | .refused reader =>
        if reader ∈ s.waiting then some { s with waiting := s.waiting.erase reader } else none
    | .read value =>
        if s.reader = none then none else some ((s.give s.reader value).queueChunk options value)
    | .done => if s.reader = none then none else some s.flushPendingChunks.finish
    | .error => if s.reader = none then none else some s.finish
    | .timer id => if id ∈ s.timers then some (s.flushTimer id) else none
    | .close => some s.clearFlushTimer

def transportMediaStream (options : Options) : Labelled State Step where
  init s := s = .create
  step s step t := s.next options step = some t

/-- The readers hand over a buffer once, as streams of bytes do. -/
def OwnBuffers (chunks : List Chunk) : Prop := (chunks.filterMap Chunk.transferred).Nodup

instance (chunks : List Chunk) : Decidable (OwnBuffers chunks) := inferInstanceAs (Decidable (List.Nodup _))

namespace State

def postedBytes (s : State) : Bytes := (s.posted.flatten.map ArrayBuffer.bytes).flatten

def pendingBytes (s : State) : Bytes := (s.pendingChunks.map ArrayBuffer.bytes).flatten

def receivedBytes (s : State) : Bytes := (s.chunks.map Chunk.view).flatten

end State

/-! ### Buffers -/

theorem Chunk.view_of_whole {value : Chunk} (h : value.Whole) : value.view = value.bytes := by
  obtain ⟨-, hoffset, hlength⟩ := h
  rw [Chunk.view, slice, hoffset, hlength, List.drop_zero, List.take_length]

/-- A chunk keeps its bytes, whatever it was a part of. -/
theorem bytes_toTransferableBuffer (copies : Nat) (value : Chunk) :
    (toTransferableBuffer copies value).bytes = value.view := by
  unfold toTransferableBuffer
  split
  · next hwhole => exact (Chunk.view_of_whole hwhole).symm
  · rfl

theorem id_toTransferableBuffer (copies : Nat) {value : Chunk} (h : value.byteLength ≠ 0) :
    (toTransferableBuffer copies value).id = .copied copies ∨
      ∃ n, value.transferred = some n ∧ (toTransferableBuffer copies value).id = .given n := by
  unfold toTransferableBuffer
  split
  · next hwhole => exact .inr ⟨value.buffer, if_pos ⟨hwhole, h⟩, rfl⟩
  · exact .inl rfl

theorem Chunk.view_eq_nil {value : Chunk} : value.view = [] ↔ value.byteLength = 0 := by
  rw [← List.length_eq_zero_iff, Chunk.view, length_slice value.inside]

namespace State

theorem flushPendingChunks_frame (s : State) : s.flushPendingChunks.reader = s.reader ∧
    s.flushPendingChunks.flushTimeoutId = s.flushTimeoutId ∧ s.flushPendingChunks.chunks = s.chunks := by
  unfold flushPendingChunks
  split
  · exact ⟨rfl, rfl, rfl⟩
  · split <;> exact ⟨rfl, rfl, rfl⟩

theorem clearFlushTimer_frame (s : State) : s.clearFlushTimer.reader = s.reader ∧
    s.clearFlushTimer.pendingChunks = s.pendingChunks ∧ s.clearFlushTimer.chunks = s.chunks := by
  unfold clearFlushTimer
  split <;> exact ⟨rfl, rfl, rfl⟩

theorem queueChunk_frame (options : Options) (s : State) (value : Chunk) :
    (s.queueChunk options value).reader = s.reader ∧ (s.queueChunk options value).chunks = s.chunks := by
  unfold queueChunk
  split
  · exact ⟨rfl, rfl⟩
  · dsimp only
    split
    · obtain ⟨hreader, -, hchunks⟩ := flushPendingChunks_frame
        (s.push (toTransferableBuffer s.copies value)).clearFlushTimer
      obtain ⟨hreader', -, hchunks'⟩ := clearFlushTimer_frame
        (s.push (toTransferableBuffer s.copies value))
      exact ⟨hreader.trans hreader', hchunks.trans hchunks'⟩
    · split <;> exact ⟨rfl, rfl⟩

theorem chunks_finish (s : State) : s.finish.chunks = s.chunks :=
  (flushPendingChunks_frame _).2.2.trans (clearFlushTimer_frame _).2.2

end State

/-! ### What is kept -/

/-- The chunks are posted or pending, in their order, and only the timer of the stream is armed. -/
structure State.Kept (s : State) : Prop where
  failed : s.failed = false
  bytes : (s.buffers.map ArrayBuffer.bytes).flatten = s.receivedBytes
  transferable : s.Transferable
  copied (n : Nat) : .copied n ∈ s.buffers.map ArrayBuffer.id → n < s.copies
  given (n : Nat) : .given n ∈ s.buffers.map ArrayBuffer.id → n ∈ s.chunks.filterMap Chunk.transferred
  timers : s.timers = s.flushTimeoutId.toList

namespace State.Kept

variable {s : State}

theorem clearFlushTimer (h : s.Kept) :
    s.clearFlushTimer.Kept ∧ s.clearFlushTimer.flushTimeoutId = none := by
  unfold State.clearFlushTimer
  split
  · next hnone => exact ⟨h, hnone⟩
  · next id hid =>
    refine ⟨⟨h.failed, h.bytes, h.transferable, h.copied, h.given, ?_⟩, rfl⟩
    change s.timers.erase id = []
    rw [h.timers, hid]
    exact List.erase_cons_head ..

theorem flushPendingChunks (h : s.Kept) :
    s.flushPendingChunks.Kept ∧ s.flushPendingChunks.pendingChunks = [] := by
  unfold State.flushPendingChunks
  split
  · next hempty => exact ⟨h, hempty⟩
  · rw [if_pos h.transferable]
    have hsame : State.buffers
        { s with pendingChunks := [], pendingChunkBytes := 0, posted := s.posted ++ [s.pendingChunks] } =
          s.buffers := by
      simp only [State.buffers, List.flatten_append, List.flatten_singleton, List.append_nil]
    refine ⟨⟨h.failed, ?_, ?_, ?_, ?_, h.timers⟩, rfl⟩
    · rw [hsame]
      exact h.bytes
    · rw [Transferable, hsame]
      exact h.transferable
    · rw [hsame]
      exact h.copied
    · rw [hsame]
      exact h.given

/-- A chunk has a buffer that none before it had. -/
theorem push (h : s.Kept) (reader : Option Nat) {value : Chunk} (hlength : value.byteLength ≠ 0)
    (hown : OwnBuffers (s.chunks ++ [value])) :
    ((s.give reader value).push (toTransferableBuffer s.copies value)).Kept := by
  have hbuffers : ((s.give reader value).push (toTransferableBuffer s.copies value)).buffers =
      s.buffers ++ [toTransferableBuffer s.copies value] := (List.append_assoc ..).symm
  have hids := id_toTransferableBuffer s.copies hlength
  have hmem {id : BufferId}
      (hid : id ∈ (s.buffers ++ [toTransferableBuffer s.copies value]).map ArrayBuffer.id) :
      id ∈ s.buffers.map ArrayBuffer.id ∨ id = (toTransferableBuffer s.copies value).id := by
    rw [List.map_append, List.mem_append, List.map_singleton, List.mem_singleton] at hid
    exact hid
  refine ⟨h.failed, ?_, ?_, ?_, ?_, h.timers⟩
  · rw [hbuffers, List.map_append, List.flatten_append, h.bytes, List.map_singleton,
      List.flatten_singleton, bytes_toTransferableBuffer]
    simp only [receivedBytes, give, State.push, List.map_append, List.map_singleton, List.flatten_append,
      List.flatten_singleton]
  · rw [Transferable, hbuffers, List.map_append, List.map_singleton]
    refine List.nodup_append.mpr ⟨h.transferable, List.nodup_singleton _, ?_⟩
    rintro _ hold _ hnew rfl
    rw [List.mem_singleton] at hnew
    rcases hids with hcopied | ⟨n, htransferred, hgiven⟩
    · exact Nat.lt_irrefl _ (h.copied _ (hcopied ▸ hnew ▸ hold))
    · have hbefore := h.given n (hgiven ▸ hnew ▸ hold)
      rw [OwnBuffers, List.filterMap_append] at hown
      refine (List.nodup_append.mp hown).2.2 n hbefore n ?_ rfl
      simp [htransferred]
  · intro n hn
    rw [hbuffers] at hn
    rcases hmem hn with hold | hnew
    · exact Nat.lt_succ_of_lt (h.copied n hold)
    · rcases hids with hcopied | ⟨m, -, hgiven⟩
      · rw [hcopied] at hnew
        cases hnew
        exact Nat.lt_succ_self _
      · rw [hgiven] at hnew
        cases hnew
  · intro n hn
    rw [hbuffers] at hn
    change n ∈ (s.chunks ++ [value]).filterMap _
    rw [List.filterMap_append]
    rcases hmem hn with hold | hnew
    · exact List.mem_append_left _ (h.given n hold)
    · rcases hids with hcopied | ⟨m, htransferred, hgiven⟩
      · rw [hcopied] at hnew
        cases hnew
      · rw [hgiven] at hnew
        cases hnew
        exact List.mem_append_right _ (by simp [htransferred])

theorem give_empty (h : s.Kept) (reader : Option Nat) {value : Chunk} (hempty : value.byteLength = 0) :
    (s.give reader value).Kept := by
  refine ⟨h.failed, h.bytes.trans ?_, h.transferable, h.copied, fun n hn => ?_, h.timers⟩
  · simp only [receivedBytes, give, List.map_append, List.map_singleton, List.flatten_append,
      Chunk.view_eq_nil.mpr hempty, List.flatten_singleton, List.append_nil]
  · change n ∈ (s.chunks ++ [value]).filterMap _
    rw [List.filterMap_append]
    exact List.mem_append_left _ (h.given n hn)

theorem setFlushTimer (h : s.Kept) (hnone : s.flushTimeoutId = none) : s.setFlushTimer.Kept := by
  refine ⟨h.failed, h.bytes, h.transferable, h.copied, h.given, ?_⟩
  change s.timers ++ [s.nextTimer] = [s.nextTimer]
  rw [h.timers, hnone]
  rfl

theorem queueChunk (h : s.Kept) (options : Options) (reader : Option Nat) {value : Chunk}
    (hown : OwnBuffers (s.chunks ++ [value])) :
    ((s.give reader value).queueChunk options value).Kept := by
  unfold State.queueChunk
  split
  · next hempty => exact h.give_empty reader hempty
  · next hlength =>
    have hpush := h.push reader hlength hown
    dsimp only
    split
    · exact hpush.clearFlushTimer.1.flushPendingChunks.1
    · split
      · next hnone => exact hpush.setFlushTimer hnone
      · exact hpush

theorem finish (h : s.Kept) : s.finish.Kept ∧ s.finish.pendingChunks = [] ∧ s.finish.timers = [] := by
  obtain ⟨hclear, hnone⟩ := h.clearFlushTimer
  obtain ⟨hflush, hempty⟩ := hclear.flushPendingChunks
  refine ⟨⟨hflush.failed, hflush.bytes, hflush.transferable, hflush.copied, hflush.given, hflush.timers⟩,
    hempty, ?_⟩
  have htimers : s.finish.timers = s.clearFlushTimer.flushPendingChunks.flushTimeoutId.toList :=
    hflush.timers
  rw [htimers, (flushPendingChunks_frame _).2.1, hnone]
  rfl

theorem flushTimer (h : s.Kept) {id : Nat} (hid : id ∈ s.timers) :
    (s.flushTimer id).Kept ∧ (s.flushTimer id).pendingChunks = [] := by
  have hfired : State.Kept { s with timers := s.timers.erase id, flushTimeoutId := none } := by
    refine ⟨h.failed, h.bytes, h.transferable, h.copied, h.given, ?_⟩
    change s.timers.erase id = []
    rw [h.timers] at hid ⊢
    rw [Option.mem_toList] at hid
    rw [hid]
    exact List.erase_cons_head ..
  exact hfired.flushPendingChunks

/-- Nothing is posted that was not queued, so all is posted when nothing is pending. -/
theorem posted (h : s.Kept) : s.postedBytes ++ s.pendingBytes = s.receivedBytes := by
  rw [← h.bytes, buffers, List.map_append, List.flatten_append]
  rfl

end State.Kept

/-! ### All runs -/

/-- While no stream is read nothing is pending. -/
structure State.Inv (s : State) : Prop where
  kept : s.Kept
  idle : s.reader = none → s.pendingChunks = [] ∧ s.timers = []

variable {options : Options} {s t : State}

theorem inv_create : State.create.Inv :=
  ⟨⟨rfl, rfl, List.nodup_nil, nofun, nofun, rfl⟩, fun _ => ⟨rfl, rfl⟩⟩

/-- What one step of each kind is. -/
theorem next_cases {step : Step} (h : s.next options step = some t) :
    (∃ reader value, (s.reader = none ∧ step = .start reader value ∨
        s.reader = some reader ∧ step = .read value) ∧
      t = (s.give (some reader) value).queueChunk options value) ∨
    (∃ waiting, t = { s with waiting := waiting }) ∨
    ((t = s.finish ∨ t = s.flushPendingChunks.finish) ∧ s.reader ≠ none) ∨
    (∃ id ∈ s.timers, t = s.flushTimer id) ∨
    t = s.clearFlushTimer := by
  unfold State.next at h
  obtain ⟨-, h⟩ := Option.ite_none_left_eq_some.mp h
  cases step with
  | start reader initialChunk =>
      dsimp only at h
      split at h
      · next hidle => exact .inl ⟨reader, initialChunk, .inl ⟨hidle, rfl⟩, (Option.some.inj h).symm⟩
      · exact .inr (.inl ⟨_, (Option.some.inj h).symm⟩)
  | refused reader =>
      obtain ⟨-, h⟩ := Option.ite_none_right_eq_some.mp h
      exact .inr (.inl ⟨_, (Option.some.inj h).symm⟩)
  | read value =>
      obtain ⟨hactive, h⟩ := Option.ite_none_left_eq_some.mp h
      obtain ⟨reader, hreader⟩ := Option.ne_none_iff_exists'.mp hactive
      rw [hreader] at h
      exact .inl ⟨reader, value, .inr ⟨hreader, rfl⟩, (Option.some.inj h).symm⟩
  | done =>
      obtain ⟨hactive, h⟩ := Option.ite_none_left_eq_some.mp h
      exact .inr (.inr (.inl ⟨.inr (Option.some.inj h).symm, hactive⟩))
  | error =>
      obtain ⟨hactive, h⟩ := Option.ite_none_left_eq_some.mp h
      exact .inr (.inr (.inl ⟨.inl (Option.some.inj h).symm, hactive⟩))
  | timer id =>
      obtain ⟨hid, h⟩ := Option.ite_none_right_eq_some.mp h
      exact .inr (.inr (.inr (.inl ⟨id, hid, (Option.some.inj h).symm⟩)))
  | close => exact .inr (.inr (.inr (.inr (Option.some.inj h).symm)))

theorem chunks_next {step : Step} (hstep : s.next options step = some t) : s.chunks <+: t.chunks := by
  rcases next_cases hstep with ⟨reader, value, -, rfl⟩ | ⟨waiting, rfl⟩ | ⟨rfl | rfl, -⟩ |
    ⟨id, -, rfl⟩ | rfl
  · rw [(State.queueChunk_frame ..).2]
    exact List.prefix_append ..
  · exact List.prefix_rfl
  · rw [State.chunks_finish]
  · rw [State.chunks_finish, (State.flushPendingChunks_frame s).2.2]
  · rw [State.flushTimer, (State.flushPendingChunks_frame _).2.2]
  · rw [(State.clearFlushTimer_frame s).2.2]

theorem State.Inv.next (h : s.Inv) {step : Step} (hstep : s.next options step = some t)
    (hown : OwnBuffers t.chunks) : t.Inv := by
  rcases next_cases hstep with ⟨reader, value, -, rfl⟩ | ⟨waiting, rfl⟩ | ⟨rfl | rfl, -⟩ |
    ⟨id, hid, rfl⟩ | rfl
  · obtain ⟨hreader, hchunks⟩ := queueChunk_frame options (s.give (some reader) value) value
    rw [hchunks] at hown
    refine ⟨h.kept.queueChunk options (some reader) hown, fun hnone => ?_⟩
    rw [hreader] at hnone
    cases hnone
  · have hk := h.kept
    exact ⟨⟨hk.failed, hk.bytes, hk.transferable, hk.copied, hk.given, hk.timers⟩, h.idle⟩
  · obtain ⟨hkept, hidle⟩ := h.kept.finish
    exact ⟨hkept, fun _ => hidle⟩
  · obtain ⟨hkept, hidle⟩ := h.kept.flushPendingChunks.1.finish
    exact ⟨hkept, fun _ => hidle⟩
  · obtain ⟨hkept, hempty⟩ := h.kept.flushTimer hid
    refine ⟨hkept, fun hnone => ?_⟩
    -- the timer would not have been there
    rw [State.flushTimer, (flushPendingChunks_frame _).1] at hnone
    rw [(h.idle hnone).2] at hid
    cases hid
  · obtain ⟨hkept, htimeout⟩ := h.kept.clearFlushTimer
    refine ⟨hkept, fun hnone => ⟨?_, ?_⟩⟩
    · rw [(clearFlushTimer_frame s).1] at hnone
      rw [(clearFlushTimer_frame s).2.1]
      exact (h.idle hnone).1
    · rw [hkept.timers, htimeout]
      rfl

/-- What has come is posted or pending, in its order.  When `start` is done all of it is posted and
no timer is left, and a further call of `start` posts nothing. -/
theorem batches_lossless (options : Options) {trace : List Step} {s : State}
    (hs : (transportMediaStream options).Run trace s) (hown : OwnBuffers s.chunks) :
    s.failed = false ∧
    s.postedBytes ++ s.pendingBytes = s.receivedBytes ∧
    (s.reader = none → s.postedBytes = s.receivedBytes ∧ s.pendingChunks = [] ∧ s.timers = []) ∧
    (∀ reader initialChunk t, s.reader ≠ none →
      s.next options (.start reader initialChunk) = some t →
      t = { s with waiting := s.waiting ++ [reader] }) ∧
    ∀ reader t, s.next options (.refused reader) = some t →
      t = { s with waiting := s.waiting.erase reader } := by
  have hinv : s.Inv := by
    refine hs.invariant (fun _ s => OwnBuffers s.chunks → s.Inv) ?_ ?_ hown
    · rintro _ rfl -
      exact inv_create
    · intro _ s step t ih hstep hown
      obtain ⟨more, hmore⟩ := chunks_next hstep
      refine (ih ?_).next hstep hown
      rw [OwnBuffers, ← hmore, List.filterMap_append] at hown
      exact (List.nodup_append.mp hown).1
  refine ⟨hinv.kept.failed, hinv.kept.posted, fun hidle => ?_, fun reader initialChunk t hactive hnext => ?_,
    fun reader t hnext => ?_⟩
  · obtain ⟨hempty, htimers⟩ := hinv.idle hidle
    have hposted := hinv.kept.posted
    rw [State.pendingBytes, hempty, List.map_nil, List.flatten_nil, List.append_nil] at hposted
    exact ⟨hposted, hempty, htimers⟩
  · obtain ⟨-, hnext⟩ := Option.ite_none_left_eq_some.mp hnext
    exact (Option.some.inj ((if_neg hactive).symm.trans hnext)).symm
  · obtain ⟨-, hnext⟩ := Option.ite_none_left_eq_some.mp hnext
    exact (Option.some.inj (Option.ite_none_right_eq_some.mp hnext).2).symm

/-- A part of a buffer is posted when its timer fires, and a whole buffer at the end. -/
def twoChunks : List Step :=
  [.start 1 ⟨0, [1, 2, 3], false, 1, 2, by decide⟩, .timer 1,
    .start 2 ⟨1, [9], false, 0, 1, by decide⟩, .read ⟨2, [4, 5], false, 0, 2, by decide⟩, .close, .done]

theorem twoChunks_lossless : ∃ s : State,
    (transportMediaStream ⟨none, some (.atLeast 4)⟩).Run twoChunks s ∧
      s.postedBytes = [2, 3, 4, 5] ∧ s.timers = [] := by
  obtain ⟨s, hrun, h⟩ : ∃ s : State,
      (transportMediaStream ⟨none, some (.atLeast 4)⟩).Run twoChunks s ∧
        (s.reader, decide (OwnBuffers s.chunks), s.receivedBytes) = (none, true, [2, 3, 4, 5]) :=
    Labelled.exists_run_next (by decide)
  obtain ⟨hreader, h⟩ := Prod.mk.inj h
  obtain ⟨hown, hreceived⟩ := Prod.mk.inj h
  obtain ⟨-, -, hidle, -⟩ := batches_lossless ⟨none, some (.atLeast 4)⟩ hrun (of_decide_eq_true hown)
  obtain ⟨hposted, -, htimers⟩ := hidle hreader
  exact ⟨s, hrun, hposted.trans hreceived, htimers⟩

/-! ### With the limits of the media streams -/

/-- The batches by their bytes alone. -/
def State.toMedia (s : State) : TransportMediaStream where
  reader := s.reader
  pendingChunks := s.pendingChunks.map ArrayBuffer.bytes
  pendingChunkBytes := s.pendingChunkBytes
  flushTimeout := s.flushTimeoutId.isSome
  posted := s.posted.map (List.map ArrayBuffer.bytes)

theorem toMedia_flushPendingChunks (h : s.Transferable) :
    s.flushPendingChunks.toMedia = s.toMedia.flushPendingChunks := by
  have hnil : s.toMedia.pendingChunks = [] ↔ s.pendingChunks = [] := List.map_eq_nil_iff
  unfold State.flushPendingChunks TransportMediaStream.flushPendingChunks
  by_cases hempty : s.pendingChunks = []
  · rw [if_pos hempty, if_pos (hnil.mpr hempty)]
  · rw [if_neg hempty, if_pos h, if_neg fun h => hempty (hnil.mp h)]
    simp only [State.toMedia, List.map_append, List.map_singleton, List.map_nil]

theorem toMedia_clearFlushTimer (s : State) :
    s.clearFlushTimer.toMedia = s.toMedia.clearFlushTimer := by
  unfold State.clearFlushTimer TransportMediaStream.clearFlushTimer
  split
  · next hnone => simp [State.toMedia, hnone]
  · rfl

theorem transferable_clearFlushTimer (h : s.Transferable) : s.clearFlushTimer.Transferable := by
  unfold State.clearFlushTimer
  split <;> exact h

/-- Without limits of its own a stream is a `TransportMediaStream`. -/
theorem toMedia_queueChunk (value : Chunk)
    (h : (s.push (toTransferableBuffer s.copies value)).Transferable) :
    (s.queueChunk ⟨none, none⟩ value).toMedia = s.toMedia.queueChunk value.view := by
  have hpush : (s.push (toTransferableBuffer s.copies value)).toMedia =
      { s.toMedia with
        pendingChunks := s.toMedia.pendingChunks ++ [value.view]
        pendingChunkBytes := s.toMedia.pendingChunkBytes + value.view.length } := by
    simp only [State.toMedia, State.push, List.map_append, List.map_singleton, bytes_toTransferableBuffer]
  have hcount : (s.push (toTransferableBuffer s.copies value)).pendingChunks.length =
      (s.toMedia.pendingChunks ++ [value.view]).length := by
    simp [State.toMedia, State.push]
  have hbytes : (s.push (toTransferableBuffer s.copies value)).pendingChunkBytes =
      s.toMedia.pendingChunkBytes + value.view.length := by
    rw [State.push, bytes_toTransferableBuffer]
    rfl
  have hreached (length limit : Nat) : Limit.Reached length (.atLeast limit) ↔ limit ≤ length :=
    Int.ofNat_le
  unfold State.queueChunk TransportMediaStream.queueChunk
  by_cases hempty : value.byteLength = 0
  · rw [if_pos hempty, if_pos (Chunk.view_eq_nil.mpr hempty)]
  · rw [if_neg hempty, if_neg fun hnil => hempty (Chunk.view_eq_nil.mp hnil)]
    simp only [Options.countLimit, Options.bytesLimit, Option.getD_none, hreached, hcount, hbytes]
    split
    · rw [toMedia_flushPendingChunks (transferable_clearFlushTimer h), toMedia_clearFlushTimer, hpush]
    · split
      · exact congrArg (fun m : TransportMediaStream => { m with flushTimeout := true }) hpush
      · next harmed =>
        rw [hpush]
        have hsome : s.flushTimeoutId.isSome = true := Option.isSome_iff_ne_none.mpr harmed
        simp only [State.toMedia, hsome]

theorem toMedia_finish (h : s.Transferable) : s.finish.toMedia = s.toMedia.finish := by
  have hflush := toMedia_flushPendingChunks (transferable_clearFlushTimer h)
  rw [toMedia_clearFlushTimer] at hflush
  unfold TransportMediaStream.finish
  rw [← hflush]
  rfl

end ChunkBatches

end Stratus.Frontend
