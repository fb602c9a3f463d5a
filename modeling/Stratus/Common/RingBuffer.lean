import Mathlib.Algebra.GroupWithZero.Nat
import Stratus.Lib.Splice
import Stratus.Lib.Transition

/-! `ringBuffer.c`: a ring of items of one size, of which a writer overwrites the oldest. -/
namespace Stratus.Common

open Stratus.Lib

abbrev Bytes := List UInt8

/-- `wrapped` is history: whether a `uint32_t` sum or difference was out of range. -/
structure RingBuffer where
  buffer : Bytes
  capacity : Nat
  itemSize : Nat
  readPos : Nat
  writePos : Nat
  itemsAvailable : Nat
  closed : Bool
  wrapped : Bool

namespace RingBuffer

/-- What is done with the lock held; `none` is an access outside of an array. -/
abbrev Locked := StateT RingBuffer Option

/-- `x + y` for `uint32_t`. -/
def plus (x y : Nat) : Locked Nat := fun ring =>
  some ((x + y) % 2 ^ 32, { ring with wrapped := ring.wrapped || decide (2 ^ 32 ≤ x + y) })

/-- `x - y` for `uint32_t`. -/
def minus (x y : Nat) : Locked Nat := fun ring =>
  some ((x + 2 ^ 32 - y) % 2 ^ 32, { ring with wrapped := ring.wrapped || decide (x < y) })

/-- `(size_t)items * item_size`. -/
def byteCount (items itemSize : Nat) : Nat := items * itemSize % 2 ^ 64

/-- `memcpy` of `count` bytes of `src` to an array. -/
def memcpy (dst : Bytes) (place : Nat) (src : Bytes) (start count : Nat) : Locked Bytes :=
  if place + count ≤ dst.length ∧ start + count ≤ src.length then
    pure (splice dst place (slice src start count))
  else fun _ => none

def dropOldestLocked (items : Nat) : Locked Unit := do
  let ring ← get
  let items := if ring.itemsAvailable < items then ring.itemsAvailable else items
  if items = 0 then return
  let readPos ← plus ring.readPos items
  let itemsAvailable ← minus ring.itemsAvailable items
  modify fun r => { r with readPos := readPos % r.capacity, itemsAvailable := itemsAvailable }

/-- How many items it has read, and the caller's array afterwards. -/
def readLocked (data : Option Bytes) (items : Nat) : Locked (Nat × Option Bytes) :=
  match data with
  | none => return (0, none)
  | some dst =>
      if items = 0 then return (0, some dst)
      else do
        let ring ← get
        let itemsToRead := if ring.itemsAvailable < items then ring.itemsAvailable else items
        if itemsToRead = 0 then return (0, some dst)
        let firstChunkItems ← minus ring.capacity ring.readPos
        let firstChunkItems :=
          if itemsToRead < firstChunkItems then itemsToRead else firstChunkItems
        let secondChunkItems ← minus itemsToRead firstChunkItems
        let dst ← memcpy dst 0 ring.buffer (byteCount ring.readPos ring.itemSize)
          (byteCount firstChunkItems ring.itemSize)
        let dst ← (
          if 0 < secondChunkItems then
            memcpy dst (byteCount firstChunkItems ring.itemSize) ring.buffer 0
              (byteCount secondChunkItems ring.itemSize)
          else pure dst)
        let readPos ← plus ring.readPos itemsToRead
        let itemsAvailable ← minus ring.itemsAvailable itemsToRead
        modify fun r => { r with readPos := readPos % r.capacity, itemsAvailable := itemsAvailable }
        return (itemsToRead, some dst)

def write (data : Option Bytes) (items : Nat) : Locked Nat :=
  match data with
  | none => return 0
  | some src =>
      if items = 0 then return 0
      else do
        let ring ← get
        if ring.closed then return 0
        let itemsToWrite := if ring.capacity < items then ring.capacity else items
        let itemsToSkip ← (if ring.capacity < items then minus items ring.capacity else pure 0)
        let itemsFree ← minus ring.capacity ring.itemsAvailable
        (if itemsFree < itemsToWrite then do
            let itemsToDrop ← minus itemsToWrite itemsFree
            dropOldestLocked itemsToDrop
          else pure ())
        let start := byteCount itemsToSkip ring.itemSize
        let firstChunkItems ← minus ring.capacity ring.writePos
        let firstChunkItems :=
          if itemsToWrite < firstChunkItems then itemsToWrite else firstChunkItems
        let secondChunkItems ← minus itemsToWrite firstChunkItems
        let buffer ← memcpy ring.buffer (byteCount ring.writePos ring.itemSize) src start
          (byteCount firstChunkItems ring.itemSize)
        let buffer ← (
          if 0 < secondChunkItems then
            memcpy buffer 0 src (start + byteCount firstChunkItems ring.itemSize)
              (byteCount secondChunkItems ring.itemSize)
          else pure buffer)
        let writePos ← plus ring.writePos itemsToWrite
        let itemsAvailable ← plus (← get).itemsAvailable itemsToWrite
        modify fun r =>
          { r with
            buffer := buffer
            writePos := writePos % r.capacity
            itemsAvailable := itemsAvailable }
        return itemsToWrite

/-- `none` when the caller has to wait for an item. -/
def waitRead (data : Option Bytes) (items : Nat) : Locked (Option (Nat × Option Bytes)) :=
  if data.isNone || items = 0 then return some (0, data)
  else do
    let ring ← get
    if ring.itemsAvailable = 0 ∧ !ring.closed then return none
    some <$> readLocked data items

def close : Locked Unit := modify fun ring => { ring with closed := true }

/-- `ring_buffer_init` with the array that `malloc` has returned. -/
def init (capacity itemSize : Nat) (buffer : Bytes) : RingBuffer where
  buffer := buffer
  capacity := capacity
  itemSize := itemSize
  readPos := 0
  writePos := 0
  itemsAvailable := 0
  closed := false
  wrapped := false

/-! ### Arithmetic that stays in range -/

theorem plus_eq {x y : Nat} (h : x + y < 2 ^ 32) : plus x y = pure (x + y) := by
  funext ring
  have hrange : decide (2 ^ 32 ≤ x + y) = false := decide_eq_false (by omega)
  simp only [plus, hrange, Bool.or_false, Nat.mod_eq_of_lt h]
  rfl

theorem minus_eq {x y : Nat} (hle : y ≤ x) (hx : x < 2 ^ 32) : minus x y = pure (x - y) := by
  funext ring
  have hrange : decide (x < y) = false := decide_eq_false (by omega)
  have hmod : (x + 2 ^ 32 - y) % 2 ^ 32 = x - y := by omega
  simp only [minus, hrange, Bool.or_false, hmod]
  rfl

theorem memcpy_eq {dst src : Bytes} {place start count : Nat} (hdst : place + count ≤ dst.length)
    (hsrc : start + count ≤ src.length) :
    memcpy dst place src start count = pure (splice dst place (slice src start count)) :=
  if_pos ⟨hdst, hsrc⟩

section Run

variable {α β : Type} (ring : RingBuffer)

theorem bind_apply (x : Locked α) (f : α → Locked β) :
    (x >>= f) ring = (x ring).bind fun result => f result.1 result.2 := rfl

theorem pure_apply (a : α) : (pure a : Locked α) ring = some (a, ring) := rfl

theorem get_apply : (get : Locked RingBuffer) ring = some (ring, ring) := rfl

end Run

/-! ### The invariant -/

/-- `cells` are the items of the array, whether they are in use or not. -/
structure Holds (ring : RingBuffer) (cells : List Bytes) : Prop where
  positive : 0 < ring.capacity
  bounded : ring.capacity ≤ 2 ^ 31
  size : ring.itemSize * ring.capacity < 2 ^ 64
  length : cells.length = ring.capacity
  sized : ∀ cell ∈ cells, cell.length = ring.itemSize
  buffer : ring.buffer = cells.flatten
  readPos : ring.readPos < ring.capacity
  available : ring.itemsAvailable ≤ ring.capacity
  writePos : ring.writePos = (ring.readPos + ring.itemsAvailable) % ring.capacity
  wrapped : ring.wrapped = false

/-- The items that have not been read. -/
def unread (ring : RingBuffer) (cells : List Bytes) : List Bytes :=
  window cells ring.readPos ring.itemsAvailable

/-- The last `capacity` elements of a list. -/
def newest {α : Type} (capacity : Nat) (l : List α) : List α := l.drop (l.length - capacity)

variable {ring : RingBuffer} {cells : List Bytes}

theorem length_unread (h : ring.Holds cells) : (ring.unread cells).length = ring.itemsAvailable :=
  length_window (h.length ▸ h.available)

theorem byteCount_eq {items itemSize : Nat} (h : itemSize * items < 2 ^ 64) :
    byteCount items itemSize = itemSize * items := by
  rw [byteCount, Nat.mul_comm, Nat.mod_eq_of_lt h]

/-- The oldest items are given up. -/
def advance (ring : RingBuffer) (items : Nat) : RingBuffer :=
  { ring with
    readPos := (ring.readPos + items) % ring.capacity
    itemsAvailable := ring.itemsAvailable - items }

theorem Holds.advance (h : ring.Holds cells) {items : Nat} (hitems : items ≤ ring.itemsAvailable) :
    (ring.advance items).Holds cells ∧
      (ring.advance items).unread cells = (ring.unread cells).drop items := by
  refine ⟨{ h with
    readPos := Nat.mod_lt _ h.positive
    available := (Nat.sub_le _ _).trans h.available
    writePos := ?_ }, ?_⟩
  · change ring.writePos = ((ring.readPos + items) % ring.capacity + (ring.itemsAvailable - items)) %
      ring.capacity
    rw [Nat.mod_add_mod, h.writePos]
    congr 1
    omega
  · change window cells ((ring.readPos + items) % ring.capacity) (ring.itemsAvailable - items) = _
    rw [unread, window_drop hitems (h.length ▸ h.available), h.length]

theorem dropOldestLocked_eq (h : ring.Holds cells) {items : Nat}
    (hitems : items ≤ ring.itemsAvailable) :
    dropOldestLocked items ring = some ((), ring.advance items) := by
  have hbounded := h.bounded
  have havailable := h.available
  have hreadPos := h.readPos
  unfold dropOldestLocked
  rw [bind_apply, get_apply, Option.bind_some]
  dsimp only
  rw [if_neg (Nat.not_lt.mpr hitems)]
  split
  · next hzero =>
    subst hzero
    rw [pure_apply, advance, Nat.add_zero, Nat.mod_eq_of_lt hreadPos, Nat.sub_zero]
  · rw [plus_eq (by omega), minus_eq hitems (by omega), pure_bind, pure_bind]
    rfl

/-- A second copy that may be empty. -/
theorem copyRest_eq {dst src : Bytes} {place start count : Nat} (items : Nat)
    (hzero : items = 0 → count = 0) (hdst : place + count ≤ dst.length)
    (hsrc : start + count ≤ src.length) :
    (if 0 < items then memcpy dst place src start count else pure dst) =
      pure (splice dst place (slice src start count)) := by
  split
  · exact memcpy_eq hdst hsrc
  · rw [hzero (by omega), slice, List.take_zero, splice_nil]

theorem readLocked_eq (h : ring.Holds cells) {dst : Bytes} {items : Nat} (hpos : 0 < items)
    (hitems : items < 2 ^ 32) (hdst : ring.itemSize * items ≤ dst.length) :
    let n := min items ring.itemsAvailable
    readLocked (some dst) items ring =
      some ((n, some (splice dst 0 ((ring.unread cells).take n).flatten)), ring.advance n) := by
  intro n
  have hbounded := h.bounded
  have havailable := h.available
  have hreadPos := h.readPos
  have hn : (if ring.itemsAvailable < items then ring.itemsAvailable else items) = n := by
    simp only [n]
    split <;> omega
  unfold readLocked
  dsimp only
  rw [if_neg (by omega), bind_apply, get_apply, Option.bind_some]
  dsimp only
  rw [hn]
  split
  · next hzero =>
    rw [hzero, pure_apply, List.take_zero, List.flatten_nil, splice_nil, advance, Nat.add_zero,
      Nat.mod_eq_of_lt hreadPos, Nat.sub_zero]
  · next hsome =>
    obtain ⟨f, hf⟩ : ∃ f, f = min (ring.capacity - ring.readPos) n := ⟨_, rfl⟩
    have hfirst : (if n < ring.capacity - ring.readPos then n else ring.capacity - ring.readPos) = f := by
      rw [hf]
      split <;> omega
    have hnle : n ≤ ring.itemsAvailable := Nat.min_le_right _ _
    have hnle' : n ≤ items := Nat.min_le_left _ _
    have hbytes {k : Nat} (hk : k ≤ ring.capacity) : ring.itemSize * k < 2 ^ 64 :=
      Nat.lt_of_le_of_lt (Nat.mul_le_mul_left _ hk) h.size
    have hlength : ring.buffer.length = ring.itemSize * ring.capacity := by
      rw [h.buffer, length_flatten_mul h.sized, h.length]
    have hfle : ring.itemSize * (ring.readPos + f) ≤ ring.itemSize * ring.capacity :=
      Nat.mul_le_mul_left _ (by omega)
    have hgle : ring.itemSize * (n - f) ≤ ring.itemSize * ring.capacity :=
      Nat.mul_le_mul_left _ (by omega)
    have hdstn : ring.itemSize * f + ring.itemSize * (n - f) ≤ dst.length := by
      rw [← Nat.mul_add]
      exact (Nat.mul_le_mul_left _ (by omega)).trans hdst
    have hpiece : (slice cells ring.readPos f).flatten.length = ring.itemSize * f := by
      have hmem : ∀ cell ∈ slice cells ring.readPos f, cell.length = ring.itemSize := fun cell hmem =>
        h.sized cell (List.mem_of_mem_drop (List.mem_of_mem_take hmem))
      rw [length_flatten_mul hmem, length_slice (by rw [h.length]; omega)]
    have hwhole : slice cells ring.readPos f ++ slice cells 0 (n - f) = (ring.unread cells).take n := by
      rw [unread, window, List.take_take, Nat.min_eq_left hnle, hf, ← h.length]
      exact slice_wrap (by rw [h.length]; omega) (by rw [h.length]; omega)
    have hcopied : splice (splice dst 0 (slice cells ring.readPos f).flatten) (ring.itemSize * f)
        (slice cells 0 (n - f)).flatten = splice dst 0 ((ring.unread cells).take n).flatten := by
      have happend := splice_append (x := (slice cells ring.readPos f).flatten)
        (y := (slice cells 0 (n - f)).flatten) (Nat.zero_le dst.length)
      rw [hpiece, Nat.zero_add] at happend
      rw [happend, ← List.flatten_append, hwhole]
    rw [minus_eq (by omega) (by omega), pure_bind, hfirst, minus_eq (by omega) (by omega), pure_bind,
      byteCount_eq (hbytes (by omega)), byteCount_eq (hbytes (by omega)),
      byteCount_eq (hbytes (by omega)), memcpy_eq (by omega) (by rw [← Nat.mul_add]; omega), pure_bind,
      h.buffer, slice_flatten h.sized]
    rw [copyRest_eq (n - f) (by rintro hzero; rw [hzero, Nat.mul_zero])]
    rotate_left
    · rw [length_splice (by omega)]
      omega
    · rw [← h.buffer]
      omega
    rw [pure_bind, ← Nat.mul_zero ring.itemSize, slice_flatten h.sized, Nat.mul_zero, hcopied,
      plus_eq (by omega), minus_eq (by omega) (by omega), pure_bind, pure_bind]
    rfl

/-! ### Writing -/

theorem advance_zero (h : ring.Holds cells) : ring.advance 0 = ring := by
  rw [advance, Nat.add_zero, Nat.mod_eq_of_lt h.readPos, Nat.sub_zero]

/-- The cells with `x` written to them from a place on, around the end. -/
def spliceWrap (cells : List Bytes) (place : Nat) (x : List Bytes) : List Bytes :=
  splice (splice cells place (x.take (cells.length - place))) 0 (x.drop (cells.length - place))

/-- Items are added after the newest one. -/
def extend (ring : RingBuffer) (cells : List Bytes) (items : Nat) : RingBuffer :=
  { ring with
    buffer := cells.flatten
    writePos := (ring.writePos + items) % ring.capacity
    itemsAvailable := ring.itemsAvailable + items }

variable {x : List Bytes}

theorem length_spliceWrap {place : Nat} (hplace : place ≤ cells.length)
    (hx : x.length ≤ cells.length) : (spliceWrap cells place x).length = cells.length := by
  have hfirst : (splice cells place (x.take (cells.length - place))).length = cells.length := by
    apply length_splice
    rw [List.length_take]
    omega
  rw [spliceWrap, length_splice, hfirst]
  rw [hfirst, List.length_drop]
  omega

theorem mem_spliceWrap {place : Nat} {cell : Bytes} (h : cell ∈ spliceWrap cells place x) :
    cell ∈ cells ∨ cell ∈ x := by
  rcases mem_splice h with h | h
  · exact (mem_splice h).imp_right List.mem_of_mem_take
  · exact .inr (List.mem_of_mem_drop h)

theorem Holds.extend (h : ring.Holds cells) (hx : ∀ item ∈ x, item.length = ring.itemSize)
    (hfits : ring.itemsAvailable + x.length ≤ ring.capacity) :
    let cells' := spliceWrap cells ring.writePos x
    (ring.extend cells' x.length).Holds cells' ∧
      (ring.extend cells' x.length).unread cells' = ring.unread cells ++ x := by
  intro cells'
  have hwritePos : ring.writePos < ring.capacity := h.writePos ▸ Nat.mod_lt _ h.positive
  have hlength := h.length
  constructor
  · refine { h with length := ?_, sized := ?_, buffer := rfl, available := hfits, writePos := ?_ }
    · exact (length_spliceWrap (by omega) (by omega)).trans h.length
    · intro cell hmem
      exact (mem_spliceWrap hmem).elim (h.sized cell) (hx cell)
    · change (ring.writePos + x.length) % ring.capacity =
        (ring.readPos + (ring.itemsAvailable + x.length)) % ring.capacity
      rw [h.writePos, Nat.mod_add_mod, Nat.add_assoc]
  · exact window_splice (by rw [h.length]; exact h.writePos) (by rw [h.length]; exact h.positive)
      (by rw [h.length]; exact hfits)

theorem makeRoom_eq (h : ring.Holds cells) {items : Nat} (hitems : items ≤ ring.capacity) :
    (if ring.capacity - ring.itemsAvailable < items then do
        let itemsToDrop ← minus items (ring.capacity - ring.itemsAvailable)
        dropOldestLocked itemsToDrop
      else pure ()) ring =
      some ((), ring.advance (items - (ring.capacity - ring.itemsAvailable))) := by
  have hbounded := h.bounded
  have havailable := h.available
  split
  · rw [minus_eq (by omega) (by omega), pure_bind, dropOldestLocked_eq h (by omega)]
  · rw [Nat.sub_eq_zero_of_le (by omega), advance_zero h, pure_apply]

/-- What is copied in the one or two parts of a write. -/
theorem copies_eq (h : ring.Holds cells) {y : List Bytes}
    (hy : ∀ item ∈ y, item.length = ring.itemSize) :
    let f := min (ring.capacity - ring.writePos) y.length
    splice (splice ring.buffer (ring.itemSize * ring.writePos) (y.take f).flatten) 0
      (y.drop f).flatten = (spliceWrap cells ring.writePos y).flatten := by
  intro f
  have htake : y.take f = y.take (cells.length - ring.writePos) := by
    rw [h.length, ← List.take_take, List.take_length]
  have hdrop : y.drop f = y.drop (cells.length - ring.writePos) := by
    rw [h.length]
    rcases Nat.le_total (ring.capacity - ring.writePos) y.length with hle | hle
    · rw [show f = _ from Nat.min_eq_left hle]
    · rw [show f = _ from Nat.min_eq_right hle, List.drop_length, List.drop_eq_nil_of_le hle]
  have hsized : ∀ cell ∈ splice cells ring.writePos (y.take f), cell.length = ring.itemSize := by
    intro cell hmem
    exact (mem_splice hmem).elim (h.sized cell) fun hmem => hy cell (List.mem_of_mem_take hmem)
  rw [h.buffer, splice_flatten h.sized fun item hmem => hy item (List.mem_of_mem_take hmem),
    ← Nat.mul_zero ring.itemSize,
    splice_flatten hsized fun item hmem => hy item (List.mem_of_mem_drop hmem), htake, hdrop]
  rfl

theorem write_eq (h : ring.Holds cells) (hopen : ring.closed = false) (hpos : 0 < x.length)
    (hx : ∀ item ∈ x, item.length = ring.itemSize) (hitems : x.length < 2 ^ 32)
    (hsize : ring.itemSize * x.length < 2 ^ 64) :
    let n := min x.length ring.capacity
    let y := x.drop (x.length - n)
    let room := ring.advance (n - (ring.capacity - ring.itemsAvailable))
    write (some x.flatten) x.length ring =
      some (n, room.extend (spliceWrap cells ring.writePos y) n) := by
  intro n y room
  have hbounded := h.bounded
  have havailable := h.available
  have hwritePos : ring.writePos < ring.capacity := h.writePos ▸ Nat.mod_lt _ h.positive
  have hn : (if ring.capacity < x.length then ring.capacity else x.length) = n := by
    simp only [n]
    split <;> omega
  have hskip : (if ring.capacity < x.length then minus x.length ring.capacity else pure 0) =
      pure (x.length - n) := by
    simp only [n]
    split
    · rw [minus_eq (by omega) hitems, Nat.min_eq_right (by omega)]
    · rw [Nat.min_eq_left (by omega), Nat.sub_self]
  have hnx : n ≤ x.length := Nat.min_le_left _ _
  have hnc : n ≤ ring.capacity := Nat.min_le_right _ _
  have hylength : y.length = n := by
    rw [List.length_drop]
    omega
  have hy : ∀ item ∈ y, item.length = ring.itemSize := fun item hmem =>
    hx item (List.mem_of_mem_drop hmem)
  obtain ⟨f, hf⟩ : ∃ f, f = min (ring.capacity - ring.writePos) n := ⟨_, rfl⟩
  have hfirst : (if n < ring.capacity - ring.writePos then n else ring.capacity - ring.writePos) = f := by
    rw [hf]
    split <;> omega
  have hbytes {k : Nat} (hk : k ≤ x.length) : ring.itemSize * k < 2 ^ 64 :=
    Nat.lt_of_le_of_lt (Nat.mul_le_mul_left _ hk) hsize
  have hplace : ring.itemSize * ring.writePos < 2 ^ 64 :=
    Nat.lt_of_le_of_lt (Nat.mul_le_mul_left _ (by omega)) h.size
  have hlength : ring.buffer.length = ring.itemSize * ring.capacity := by
    rw [h.buffer, length_flatten_mul h.sized, h.length]
  have hsrc : x.flatten.length = ring.itemSize * x.length := length_flatten_mul hx
  have hcopies : splice (splice ring.buffer (ring.itemSize * ring.writePos) (y.take f).flatten) 0
      (y.drop f).flatten = (spliceWrap cells ring.writePos y).flatten := by
    rw [hf, ← hylength]
    exact copies_eq h hy
  unfold write
  dsimp only
  rw [if_neg (by omega), bind_apply, get_apply, Option.bind_some]
  dsimp only
  rw [hopen, if_neg Bool.false_ne_true, hn, hskip, pure_bind, minus_eq havailable (by omega), pure_bind,
    bind_apply, makeRoom_eq h hnc, Option.bind_some, minus_eq (by omega) (by omega), pure_bind, hfirst,
    minus_eq (by omega) (by omega), pure_bind, byteCount_eq hplace,
    byteCount_eq (hbytes (by omega)), byteCount_eq (hbytes (by omega)),
    byteCount_eq (hbytes (by omega))]
  have hparts : ring.itemSize * (x.length - n) + ring.itemSize * f + ring.itemSize * (n - f) =
      ring.itemSize * x.length := by
    rw [← Nat.mul_add, ← Nat.mul_add]
    congr 1
    omega
  have hwritten : ring.itemSize * (ring.writePos + f) ≤ ring.itemSize * ring.capacity :=
    Nat.mul_le_mul_left _ (by omega)
  have hrest : ring.itemSize * (n - f) ≤ ring.itemSize * ring.capacity :=
    Nat.mul_le_mul_left _ (by omega)
  have hslice : slice x (x.length - n) f = y.take f := rfl
  have hsecond : slice x (x.length - n + f) (n - f) = y.drop f := by
    rw [slice, ← List.drop_drop]
    apply List.take_of_length_le
    change (y.drop f).length ≤ n - f
    rw [List.length_drop, hylength]
  rw [memcpy_eq (by rw [← Nat.mul_add]; omega) (by omega), pure_bind, slice_flatten hx, hslice]
  have hpiece : (y.take f).flatten.length = ring.itemSize * f := by
    rw [length_flatten_mul fun item hmem => hy item (List.mem_of_mem_take hmem), List.length_take]
    congr 1
    omega
  have hpart : (splice ring.buffer (ring.itemSize * ring.writePos) (y.take f).flatten).length =
      ring.buffer.length := by
    apply length_splice
    rw [hpiece, ← Nat.mul_add]
    omega
  rw [copyRest_eq (n - f) (by rintro hzero; rw [hzero, Nat.mul_zero]) (by omega) (by omega), pure_bind,
    ← Nat.mul_add, slice_flatten hx, hsecond, hcopies, plus_eq (by omega), pure_bind, bind_apply,
    get_apply, Option.bind_some]
  dsimp only
  rw [plus_eq, pure_bind]
  · rfl
  · change ring.itemsAvailable - _ + n < 2 ^ 32
    omega

/-! ### An array that goes on after the items -/

/-- The second does what the first does, wherever that goes well. -/
def Refined {α : Type} (x y : Locked α) : Prop := ∀ ring r, x ring = some r → y ring = some r

theorem Refined.refl {α : Type} (x : Locked α) : Refined x x := fun _ _ => id

theorem Refined.bind {α β : Type} {x y : Locked α} {f g : α → Locked β} (h : Refined x y)
    (hrest : ∀ a, Refined (f a) (g a)) : Refined (x >>= f) (y >>= g) := by
  intro ring r hr
  obtain ⟨first, hfirst, hlast⟩ := Option.bind_eq_some_iff.mp hr
  exact Option.bind_eq_some_iff.mpr ⟨first, h ring first hfirst, hrest first.1 first.2 r hlast⟩

theorem Refined.ite {α : Type} {c : Prop} [Decidable c] {x x' y y' : Locked α} (h : Refined x y)
    (h' : Refined x' y') : Refined (if c then x else x') (if c then y else y') := by
  split
  · exact h
  · exact h'

theorem memcpy_append (dst : Bytes) (place : Nat) (src more : Bytes) (start count : Nat) :
    Refined (memcpy dst place src start count) (memcpy dst place (src ++ more) start count) := by
  unfold memcpy
  split
  · next hfits =>
    have hslice : slice (src ++ more) start count = slice src start count := by
      rw [slice, slice, List.drop_append_of_le_length (by omega), List.take_append_of_le_length]
      rw [List.length_drop]
      omega
    rw [if_pos ⟨hfits.1, by rw [List.length_append]; omega⟩, hslice]
    exact Refined.refl _
  · rintro _ _ ⟨⟩

/-- A write takes what it copies from the front of the array. -/
theorem write_append {src : Bytes} (more : Bytes) {items : Nat} :
    Refined (write (some src) items) (write (some (src ++ more)) items) := by
  refine Refined.ite (.refl _) (.bind (.refl _) fun ring => .ite (.refl _) ?_)
  refine .bind (.refl _) fun skip => .bind (.refl _) fun free => .bind (.refl _) fun _ => ?_
  refine .bind (.refl _) fun first => .bind (.refl _) fun second => ?_
  refine .bind (memcpy_append _ _ _ _ _ _) fun buffer => .bind ?_ fun _ => .refl _
  exact .ite (memcpy_append _ _ _ _ _ _) (.refl _)

/-! ### Calls -/

/-- The items to write are in an array of their own; `none` is `NULL`. -/
inductive Call where
  | write (data : Option (List Bytes)) (items : Nat)
  | waitRead (data : Option Bytes) (items : Nat)
  | close

inductive Answer where
  | written (items : Nat)
  | waits
  | read (items : Nat) (data : Option Bytes)
  | done
deriving DecidableEq

def Answer.ofRead : Option (Nat × Option Bytes) → Answer
  | none => .waits
  | some (items, data) => .read items data

def call : Call → Locked Answer
  | .write data items => .written <$> write (data.map List.flatten) items
  | .waitRead data items => Answer.ofRead <$> waitRead data items
  | .close => (fun _ => .done) <$> close

/-- What the callers see to: the array holds the items that it is said to hold, or has room
for them. -/
def Call.Allowed (itemSize : Nat) : Call → Prop
  | .write data items => items < 2 ^ 32 ∧
      ∀ x ∈ data, x.length = items ∧ itemSize * items < 2 ^ 64 ∧
        ∀ item ∈ x, item.length = itemSize
  | .waitRead data items => items < 2 ^ 32 ∧ ∀ dst ∈ data, itemSize * items ≤ dst.length
  | .close => True

/-- What the ring is for: the newest items are kept. -/
structure Kept where
  items : List Bytes
  closed : Bool

def Kept.call (capacity : Nat) (kept : Kept) : Call → Answer × Kept
  | .write none _ => (.written 0, kept)
  | .write (some x) n =>
      if n = 0 ∨ kept.closed then (.written 0, kept)
      else (.written (min n capacity), { kept with items := newest capacity (kept.items ++ x) })
  | .waitRead none _ => (.read 0 none, kept)
  | .waitRead (some dst) m =>
      if m = 0 then (.read 0 (some dst), kept)
      else if kept.items = [] ∧ kept.closed = false then (.waits, kept)
      else
        (.read (min m kept.items.length) (some (splice dst 0 (kept.items.take m).flatten)),
          { kept with items := kept.items.drop m })
  | .close => (.done, { kept with closed := true })

/-- The unread items as they lie in the array. -/
def contents (ring : RingBuffer) : List Bytes :=
  (List.range ring.itemsAvailable).map fun i =>
    slice ring.buffer (ring.itemSize * ((ring.readPos + i) % ring.capacity)) ring.itemSize

theorem contents_eq (h : ring.Holds cells) : ring.contents = ring.unread cells := by
  apply List.ext_getElem
  · rw [length_unread h, contents, List.length_map, List.length_range]
  · intro i hi _
    have hlength := h.length
    have hplace : (ring.readPos + i) % ring.capacity < cells.length := by
      rw [hlength]
      exact Nat.mod_lt _ h.positive
    have hone : slice cells ((ring.readPos + i) % ring.capacity) 1 =
        [cells[(ring.readPos + i) % ring.capacity]] := by
      rw [slice, List.drop_eq_getElem_cons hplace, List.take_succ_cons, List.take_zero]
    have hcell := slice_flatten h.sized ((ring.readPos + i) % ring.capacity) 1
    rw [hone, List.flatten_cons, List.flatten_nil, List.append_nil, Nat.mul_one, ← h.buffer] at hcell
    simp only [contents, List.getElem_map, List.getElem_range, hcell, unread, window,
      List.getElem_take, List.getElem_rotate, hlength, Nat.add_comm i]

/-- The ring keeps these items. -/
def Represents (capacity itemSize : Nat) (ring : RingBuffer) (kept : Kept) : Prop :=
  ring.capacity = capacity ∧ ring.itemSize = itemSize ∧ ring.closed = kept.closed ∧
    ∃ cells, ring.Holds cells ∧ ring.unread cells = kept.items

variable {capacity itemSize : Nat} {kept : Kept}

theorem newest_append {l : List Bytes} (hl : l.length ≤ capacity) :
    newest capacity (l ++ x) =
      l.drop (min x.length capacity - (capacity - l.length)) ++ x.drop (x.length - min x.length capacity) := by
  rw [newest, List.length_append, List.drop_append]
  rcases Nat.le_total x.length capacity with hle | hle
  · rw [Nat.min_eq_left hle, Nat.sub_self]
    congr 2 <;> omega
  · have hold : l.drop (l.length + x.length - capacity) = l.drop (capacity - (capacity - l.length)) := by
      rw [List.drop_eq_nil_of_le (by omega), List.drop_eq_nil_of_le (by omega)]
    rw [Nat.min_eq_right hle, hold]
    congr 2
    omega

theorem call_write (h : ring.Represents capacity itemSize kept) (hopen : kept.closed = false)
    (hpos : 0 < x.length) (hx : ∀ item ∈ x, item.length = itemSize) (hitems : x.length < 2 ^ 32)
    (hsize : itemSize * x.length < 2 ^ 64) :
    ∃ ring', write (some x.flatten) x.length ring = some (min x.length capacity, ring') ∧
      ring'.Represents capacity itemSize { kept with items := newest capacity (kept.items ++ x) } := by
  obtain ⟨rfl, rfl, hclosed, cells, hholds, hkept⟩ := h
  have havailable := hholds.available
  have hlength : kept.items.length = ring.itemsAvailable := by rw [← hkept, length_unread hholds]
  have hdrop : min x.length ring.capacity - (ring.capacity - ring.itemsAvailable) ≤
      ring.itemsAvailable := by omega
  obtain ⟨hroom, hdropped⟩ := hholds.advance hdrop
  obtain ⟨hholds', hunread'⟩ := hroom.extend
    (x := x.drop (x.length - min x.length ring.capacity))
    (fun item hmem => hx item (List.mem_of_mem_drop hmem)) (by
      rw [List.length_drop]
      change ring.itemsAvailable - _ + _ ≤ ring.capacity
      omega)
  have hn : (x.drop (x.length - min x.length ring.capacity)).length = min x.length ring.capacity := by
    rw [List.length_drop]
    omega
  rw [hn] at hholds' hunread'
  refine ⟨_, write_eq hholds (hclosed.trans hopen) hpos hx hitems hsize, rfl, rfl, hclosed, _, hholds',
    ?_⟩
  refine hunread'.trans ?_
  rw [hdropped, hkept, newest_append (by omega), hlength]

theorem call_waitRead (h : ring.Represents capacity itemSize kept) {dst : Bytes} {items : Nat}
    (hpos : 0 < items) (hitems : items < 2 ^ 32) (hdst : itemSize * items ≤ dst.length)
    (hsome : ¬ (kept.items = [] ∧ kept.closed = false)) :
    ∃ ring', waitRead (some dst) items ring = some (some (min items kept.items.length,
        some (splice dst 0 (kept.items.take items).flatten)), ring') ∧
      ring'.Represents capacity itemSize { kept with items := kept.items.drop items } := by
  obtain ⟨rfl, rfl, hclosed, cells, hholds, hkept⟩ := h
  have hlength : kept.items.length = ring.itemsAvailable := by rw [← hkept, length_unread hholds]
  have hready : ¬ (ring.itemsAvailable = 0 ∧ (!ring.closed) = true) := by
    rw [← hlength, List.length_eq_zero_iff, hclosed, Bool.not_eq_true']
    exact hsome
  have htake : kept.items.take (min items kept.items.length) = kept.items.take items := by
    rw [← List.take_take, List.take_length]
  have hdrop : kept.items.drop (min items kept.items.length) = kept.items.drop items := by
    rcases Nat.le_total items kept.items.length with hle | hle
    · rw [Nat.min_eq_left hle]
    · rw [Nat.min_eq_right hle, List.drop_length, List.drop_eq_nil_of_le hle]
  obtain ⟨hholds', hunread'⟩ := hholds.advance (Nat.min_le_right items ring.itemsAvailable)
  refine ⟨ring.advance (min items ring.itemsAvailable), ?_, rfl, rfl, hclosed, cells, hholds', ?_⟩
  · unfold waitRead
    rw [if_neg (by simp; omega), bind_apply, get_apply, Option.bind_some]
    dsimp only
    rw [if_neg hready, map_eq_pure_bind, bind_apply, readLocked_eq hholds hpos hitems hdst,
      Option.bind_some, pure_apply, hkept, ← hlength, htake]
  · rw [hunread', hkept, ← hlength, hdrop]

theorem write_nothing {src : Bytes} {items : Nat} (h : items = 0 ∨ ring.closed = true) :
    write (some src) items ring = some (0, ring) := by
  unfold write
  dsimp only
  split
  · rfl
  · next hsome =>
    rw [bind_apply, get_apply, Option.bind_some]
    dsimp only
    rw [if_pos (h.resolve_left hsome)]
    rfl

theorem waitRead_waits {dst : Bytes} {items : Nat} (hpos : items ≠ 0)
    (hnone : ring.itemsAvailable = 0) (hopen : ring.closed = false) :
    waitRead (some dst) items ring = some (none, ring) := by
  unfold waitRead
  rw [if_neg (by simp [hpos]), bind_apply, get_apply, Option.bind_some]
  dsimp only
  rw [if_pos ⟨hnone, by rw [hopen]; rfl⟩]
  rfl

theorem map_call {α : Type} {ring' : RingBuffer} {f : α → Answer} {x : Locked α} {a : α}
    (h : x ring = some (a, ring')) : (f <$> x) ring = some (f a, ring') := by
  rw [map_eq_pure_bind, bind_apply, h]
  rfl

theorem call_eq (op : Call) (h : ring.Represents capacity itemSize kept)
    (hallowed : op.Allowed itemSize) :
    ∃ ring', call op ring = some ((kept.call capacity op).1, ring') ∧
      ring'.Represents capacity itemSize (kept.call capacity op).2 := by
  have hkept := h
  obtain ⟨hcapacity, hsize, hclosed, cells, hholds, hunread⟩ := hkept
  cases op with
  | write data n =>
      cases data with
      | none => exact ⟨ring, rfl, h⟩
      | some x =>
          obtain ⟨hitems, hdata⟩ := hallowed
          obtain ⟨rfl, hbytes, hx⟩ := hdata x rfl
          simp only [Kept.call]
          split
          · next hnone => exact ⟨ring, map_call (write_nothing (hclosed ▸ hnone)), h⟩
          · next hsome =>
            rw [not_or, Bool.not_eq_true] at hsome
            obtain ⟨ring', heq, h'⟩ :=
              call_write h hsome.2 (Nat.pos_of_ne_zero hsome.1) hx hitems hbytes
            exact ⟨ring', map_call heq, h'⟩
  | waitRead data m =>
      cases data with
      | none => exact ⟨ring, rfl, h⟩
      | some dst =>
          obtain ⟨hitems, hdata⟩ := hallowed
          simp only [Kept.call]
          split
          · next hzero =>
            subst hzero
            exact ⟨ring, rfl, h⟩
          · next hpos =>
            split
            · next hempty =>
              have hnone : ring.itemsAvailable = 0 := by
                rw [← length_unread hholds, hunread, hempty.1, List.length_nil]
              exact ⟨ring, map_call (waitRead_waits hpos hnone (hclosed.trans hempty.2)), h⟩
            · next hsome =>
              obtain ⟨ring', heq, h'⟩ :=
                call_waitRead h (Nat.pos_of_ne_zero hpos) hitems (hdata dst rfl) hsome
              exact ⟨ring', map_call heq, h'⟩
  | close => exact ⟨_, rfl, hcapacity, hsize, rfl, cells, { hholds with }, hunread⟩

theorem init_represents {buffer : Bytes} (hpos : 0 < capacity) (hcapacity : capacity ≤ 2 ^ 31)
    (hsize : itemSize * capacity < 2 ^ 64) (hbuffer : buffer.length = byteCount capacity itemSize) :
    (init capacity itemSize buffer).Represents capacity itemSize ⟨[], false⟩ := by
  rw [byteCount_eq hsize] at hbuffer
  obtain ⟨cells, hlength, hsized, hflatten⟩ := exists_flatten hbuffer
  refine ⟨rfl, rfl, rfl, cells, ?_, rfl⟩
  exact
    { positive := hpos
      bounded := hcapacity
      size := hsize
      length := hlength
      sized := hsized
      buffer := hflatten
      readPos := hpos
      available := Nat.zero_le _
      writePos := (Nat.zero_mod _).symm
      wrapped := rfl }

/-- The ring of any size, after any calls, has kept the newest items and has answered as it is
meant to. -/
theorem keeps_newest {buffer : Bytes} (hpos : 1 ≤ capacity) (hcapacity : capacity ≤ 2 ^ 31)
    (hsize : itemSize * capacity < 2 ^ 64) (hbuffer : buffer.length = byteCount capacity itemSize)
    (calls : List Call)
    (hcalls : ∀ op ∈ calls, op.Allowed itemSize) :
    let kept := specified (fun op kept => Kept.call capacity kept op) calls ⟨[], false⟩
    ∃ ring, answers call calls (init capacity itemSize buffer) = some (kept.1, ring) ∧
      ring.contents = kept.2.items ∧ ring.closed = kept.2.closed ∧
      ring.contents.length = ring.itemsAvailable ∧ ring.itemsAvailable ≤ capacity ∧
      ring.writePos = (ring.readPos + ring.itemsAvailable) % capacity ∧ ring.wrapped = false := by
  intro kept
  obtain ⟨ring, hanswers, rfl, -, hclosed, cells, hholds, hunread⟩ :=
    answers_eq_specified (Call.Allowed itemSize) (Represents capacity itemSize)
      (fun op _ _ hallowed h => call_eq op h hallowed) hcalls
      (init_represents hpos hcapacity hsize hbuffer)
  refine ⟨ring, hanswers, ?_, hclosed, ?_, hholds.available, hholds.writePos, hholds.wrapped⟩
  · rw [contents_eq hholds, hunread]
  · rw [contents_eq hholds, length_unread hholds]

/-- Two writes that overwrite, then one after the end. -/
def overwrites : List Call :=
  [.write (some [[1], [2], [3]]) 3, .waitRead (some [0]) 1, .write (some [[4], [5]]) 2, .close,
    .write (some [[6]]) 1, .waitRead (some [0, 0, 0]) 3, .waitRead (some [0]) 1]

theorem keeps_newest_overwrites :
    ∃ ring, answers call overwrites (init 2 1 [0, 0]) = some
        ([.written 2, .read 1 (some [2]), .written 2, .done, .written 0, .read 2 (some [4, 5, 0]),
          .read 0 (some [0])], ring) ∧
      ring.contents = [] ∧ ring.closed = true ∧ ring.wrapped = false := by
  have hcalls : ∀ op ∈ overwrites, op.Allowed 1 := by
    simp [overwrites, Call.Allowed]
  obtain ⟨ring, hanswers, hcontents, hclosed, -, -, -, hwrapped⟩ :=
    keeps_newest (by decide : 1 ≤ 2) (by decide) (by decide) (by decide : ([0, 0] : Bytes).length = byteCount 2 1)
      overwrites hcalls
  exact ⟨ring, hanswers, hcontents, hclosed, hwrapped⟩

end RingBuffer

end Stratus.Common
