import Mathlib.Tactic.Ring
import Stratus.Common.Rbuf
import Stratus.Lib.Cyclic

/-! The invariant of the pointer queue.  Entries are numbered in the order in
which they were appended; number `k` lives in slot `k % size`.  The producer has
cleared the first `cleared` of them, so one turn of the ring from there on holds
the appended entries that are left and then empty slots, and `tail` and `head`
are the counts of removed and appended entries reduced to indices. -/
namespace Stratus.Common.Rbuf

open Stratus.Lib Stratus.Lib.Cyclic

variable {α : Type}

/-! ### Index arithmetic -/

theorem index_eq {size base i : Nat} (hsum : base + i < 2 ^ 31) :
    index size base i = (base + i) % size := by
  unfold index
  rw [cInt_eq (by omega) (by omega), ← Nat.cast_add, ← Int.ofNat_tmod]
  exact Int.toNat_natCast _

theorem usedCapacity_eq {n head tail : Nat} (hn : n < 2 ^ 30) (hle : tail ≤ head)
    (hfull : head ≤ tail + n) :
    usedCapacity (n + 1) (head % (n + 1)) ((tail + n) % (n + 1)) = (head - tail : Nat) := by
  have hh : head % (n + 1) < n + 1 := Nat.mod_lt _ (by omega)
  have ht : (tail + n) % (n + 1) < n + 1 := Nat.mod_lt _ (by omega)
  have hsub : cInt ((head % (n + 1) : Nat) - ((tail + n) % (n + 1) : Nat)) =
      (head % (n + 1) : Nat) - ((tail + n) % (n + 1) : Nat) := cInt_eq (by omega) (by omega)
  have hcast : ((head % (n + 1) : Nat) : Int) - ((tail + n) % (n + 1) : Nat) - 1 + (n + 1 : Nat) =
      ((head % (n + 1) + (n + 1) - (tail + n) % (n + 1) - 1 : Nat) : Int) := by omega
  unfold usedCapacity
  rw [hsub, cInt_eq (x := _ - 1) (by omega) (by omega), cInt_eq (by omega) (by omega), hcast,
    ← Int.ofNat_tmod, used_mod hle hfull]

theorem freeCapacity_eq {n head tail : Nat} (hn : n < 2 ^ 30) (hle : tail ≤ head)
    (hfull : head ≤ tail + n) :
    freeCapacity (n + 1) (head % (n + 1)) ((tail + n) % (n + 1)) =
      (n : Int) - (head - tail : Nat) := by
  have hsub : cInt ((n + 1 : Nat) - (head - tail : Nat)) = (n + 1 : Nat) - (head - tail : Nat) :=
    cInt_eq (by omega) (by omega)
  unfold freeCapacity
  rw [usedCapacity_eq hn hle hfull, hsub, cInt_eq (by omega) (by omega)]
  omega

/-! ### What the slots hold -/

/-- `cleared` entries have been cleared, and slot number `published.length`, the
one at `head`, holds `slot` rather than `NULL` once the producer has written it. -/
structure Cells (n : Nat) (s : Shared α) (cleared : Nat) (slot : Option α) : Prop where
  size_eq : s.buf.size = n + 1
  head_eq : s.buf.head = s.published.length % (n + 1)
  tail_eq : s.buf.tail = (s.popped + n) % (n + 1)
  popped_le : s.popped ≤ s.published.length
  published_le : s.published.length ≤ s.popped + n
  freed_eq : s.buf.freed = s.published.take s.buf.freed.length
  freed_le : s.buf.freed.length ≤ s.popped
  cleared_le : cleared ≤ s.buf.freed.length
  room : s.published.length < cleared + (n + 1)
  cell : ∀ k, cleared ≤ k → k < cleared + (n + 1) →
    s.buf.entries (k % (n + 1)) = if k = s.published.length then slot else s.published[k]?
  registered : s.published ≠ [] → s.buf.free = true

namespace Cells

variable {n : Nat} {s : Shared α} {cleared : Nat} {slot : Option α}

theorem freed_length_le (h : Cells n s cleared slot) :
    s.buf.freed.length ≤ s.published.length :=
  h.freed_le.trans h.popped_le

theorem entry (h : Cells n s cleared slot) {k : Nat} (hk : cleared ≤ k)
    (hlt : k < s.published.length) :
    s.buf.entries (k % (n + 1)) = some s.published[k] := by
  rw [h.cell k hk (by have := h.room; omega), if_neg (by omega), List.getElem?_eq_getElem hlt]

theorem used_eq (h : Cells n s cleared slot) (hn : n < 2 ^ 30) :
    usedCapacity s.buf.size s.buf.head s.buf.tail = (s.published.length - s.popped : Nat) := by
  rw [h.size_eq, h.head_eq, h.tail_eq, usedCapacity_eq hn h.popped_le h.published_le]

theorem free_eq (h : Cells n s cleared slot) (hn : n < 2 ^ 30) :
    freeCapacity s.buf.size s.buf.head s.buf.tail =
      (n : Int) - (s.published.length - s.popped : Nat) := by
  rw [h.size_eq, h.head_eq, h.tail_eq, freeCapacity_eq hn h.popped_le h.published_le]

theorem slot_after_tail (h : Cells n s cleared slot) (i : Nat) :
    (s.buf.tail + 1 + i) % s.buf.size = (s.popped + i) % (n + 1) := by
  rw [h.size_eq, h.tail_eq]
  have hcong : (s.popped + n) % (n + 1) + 1 + i ≡ s.popped + i + (n + 1) [MOD n + 1] := by
    have := ((Nat.mod_modEq (s.popped + n) (n + 1)).add_right 1).add_right i
    rwa [show s.popped + n + 1 + i = s.popped + i + (n + 1) by omega] at this
  rw [hcong, Nat.add_mod_right]

/-- The queue read off the memory is what was appended and not yet removed. -/
theorem queue_eq (h : Cells n s cleared slot) (hn : n < 2 ^ 30) :
    s.buf.queue = s.published.drop s.popped := by
  unfold Buf.queue
  rw [h.used_eq hn, Int.toNat_natCast]
  calc (List.range (s.published.length - s.popped)).filterMap
        (fun i => s.buf.entries ((s.buf.tail + 1 + i) % s.buf.size))
      = (List.range (s.published.length - s.popped)).filterMap
        (fun i => s.published[s.popped + i]?) := by
        apply List.filterMap_congr
        intro i hi
        have hlt : s.popped + i < s.published.length := by
          have := List.mem_range.mp hi
          omega
        have hcl : cleared ≤ s.popped + i := by
          have := h.cleared_le
          have := h.freed_le
          omega
        rw [h.slot_after_tail, h.entry hcl hlt, List.getElem?_eq_getElem hlt]
    _ = (List.range' s.popped (s.published.length - s.popped)).filterMap
        (fun k => s.published[k]?) := by
        rw [List.range'_eq_map_range, List.filterMap_map]
        rfl
    _ = s.published.drop s.popped := by
        rw [filterMap_range_getElem, List.take_of_length_le (by simp)]

theorem snapshot_eq (h : Cells n s cleared slot) (hn : n < 2 ^ 30) :
    s.snapshot = (s.popped, s.published.drop s.popped) := by
  rw [Shared.snapshot, h.queue_eq hn]

end Cells

/-! ### What each thread knows -/

namespace Shared

@[simp] theorem record_buf (s : Shared α) (b : Buf α) (e : Event α) :
    (s.record b e).buf = b := rfl
@[simp] theorem record_published (s : Shared α) (b : Buf α) (e : Event α) :
    (s.record b e).published = (s.note e).published := rfl
@[simp] theorem record_popped (s : Shared α) (b : Buf α) (e : Event α) :
    (s.record b e).popped = (s.note e).popped := rfl
@[simp] theorem record_pushed (s : Shared α) (b : Buf α) (e : Event α) :
    (s.record b e).pushed = (s.note e).pushed := rfl
@[simp] theorem record_seen (s : Shared α) (b : Buf α) (e : Event α) :
    (s.record b e).seen = (s.note e).seen := rfl
@[simp] theorem record_window (s : Shared α) (b : Buf α) (e : Event α) :
    (s.record b e).window = (s.record b e).snapshot :: s.window := by
  cases e <;> rfl

end Shared

/-- Entries freed but not yet cleared. -/
def Producer.uncleared : Producer α → Nat
  | .entryClear .. => 1
  | _ => 0

/-- What the producer has put at `head` without having advanced it. -/
def Producer.slot : Producer α → Option α
  | .nextHead data => some data
  | .nextWrite data _ => some data
  | _ => none

/-- Entries appended whose push has not returned. -/
def Producer.pending : Producer α → List α
  | .post data => [data]
  | _ => []

/-- A push that has passed its capacity check keeps room for one entry, since
the consumer only makes more. -/
def Room (n : Nat) (s : Shared α) (push : Option α) : Prop :=
  push.isSome → s.published.length < s.popped + n ∧ s.buf.free = true

/-- In the loop of `rbuf_free_expired` index `i` stands for entry number
`published.length + i - size`; everything below it is cleared. -/
def Producer.Knows (n : Nat) (s : Shared α) (cleared : Nat) : Producer α → Prop
  | .idle | .capHead | .post _ => True
  | .capTail head => head = s.buf.head
  | .pushHead _ => s.buf.free = true
  | .pushTail _ head => head = s.buf.head ∧ s.buf.free = true
  | .expiredTail push => Room n s push
  | .expiredEntry push tail => Room n s push ∧ ∃ popped ≤ s.popped,
      tail = (popped + n) % (n + 1) ∧ (push.isSome → s.published.length < popped + n)
  | .loopHead push i => Room n s push ∧ 1 ≤ i ∧ s.published.length + i ≤ cleared + (n + 1)
  | .loopTail push i head => head = s.buf.head ∧ Room n s push ∧ 1 ≤ i ∧
      s.published.length + i ≤ cleared + (n + 1)
  | .idxHead push i => Room n s push ∧ 1 ≤ i ∧ s.published.length + i ≤ cleared + (n + 1) ∧
      s.published.length + i < s.popped + (n + 1)
  | .entryTest push i idx => idx = (s.published.length + i) % (n + 1) ∧ Room n s push ∧ 1 ≤ i ∧
      s.published.length + i ≤ cleared + (n + 1) ∧ s.published.length + i < s.popped + (n + 1)
  | .entryFree push i idx => idx = cleared % (n + 1) ∧ Room n s push ∧ 1 ≤ i ∧
      s.published.length + i = cleared + (n + 1) ∧ cleared < s.popped
  | .entryClear push i idx => idx = cleared % (n + 1) ∧ Room n s push ∧ 1 ≤ i ∧
      s.published.length + i = cleared + (n + 1)
  | .slotHead data => Room n s (some data) ∧ s.published.length < cleared + n
  | .slotWrite data head => head = s.buf.head ∧ Room n s (some data) ∧
      s.published.length < cleared + n
  | .nextHead data => Room n s (some data) ∧ s.published.length < cleared + n
  | .nextWrite data head => head = s.buf.head ∧ Room n s (some data) ∧
      s.published.length < cleared + n

structure ProducerAt (n : Nat) (s : Shared α) (p : Producer α) (cleared : Nat) : Prop where
  cells : Cells n s cleared p.slot
  cleared_eq : cleared + p.uncleared = s.buf.freed.length
  pushed_eq : s.pushed ++ p.pending = s.published
  knows : p.Knows n s cleared
  /-- What `rbuf_free_capacity` returned is still free until the next append. -/
  seen : ∀ v, s.seen = some v → v + s.published.length ≤ n + s.popped

def ProducerInv (n : Nat) (s : Shared α) (p : Producer α) : Prop :=
  ∃ cleared, ProducerAt n s p cleared

/-- Semaphore counts the consumer has taken for an entry it has not yet removed. -/
def Consumer.hold : Consumer → Nat
  | .waitPost _ | .popHead _ | .popTail .. | .popNext _ | .popWrite .. => 1
  | _ => 0

/-- `head` was read when `count` entries had been appended, after the call began. -/
def Read (n : Nat) (s : Shared α) (head count : Nat) : Prop :=
  head = count % (n + 1) ∧ s.popped ≤ count ∧ count ≤ s.popped + n ∧ count ≤ s.published.length ∧
    (s.popped, (s.published.drop s.popped).take (count - s.popped)) ∈ s.window

/-- Once `_rbuf_pop_old` is done, the next entry has been, or will have been, the
only one in the queue at some moment of the call. -/
def Single (s : Shared α) (op : Peak) : Prop :=
  op.latest → (s.published.length = s.popped ∧ (s.popped, []) ∈ s.window) ∨
    ∃ x, s.published[s.popped]? = some x ∧ (s.popped, [x]) ∈ s.window

def InPop (s : Shared α) (inside : Option Peak) : Prop :=
  ∀ op, inside = some op → op.latest ∧ s.popped + 1 < s.published.length

def Consumer.Knows (n : Nat) (s : Shared α) : Consumer → Prop
  | .idle | .waitSem _ | .waitPost _ => True
  | .oldHead op => op.latest ∧ (op.wait → s.popped < s.published.length)
  | .oldTail op head => op.latest ∧ ∃ count, Read n s head count ∧
      (op.wait → s.popped < count) ∧ (count ≤ s.popped + 1 → Single s op)
  | .popSem inside => s.popped < s.published.length ∧ InPop s inside
  | .popHead inside => InPop s inside
  | .popTail inside head => InPop s inside ∧ ∃ count, Read n s head count ∧ s.popped < count
  | .popNext inside => InPop s inside
  | .popWrite inside tail => tail = s.buf.tail ∧ InPop s inside
  | .peakHead op => Single s op ∧ (op.wait → s.popped < s.published.length)
  | .peakTail op head => Single s op ∧
      ∃ count, Read n s head count ∧ (op.wait → s.popped < count)
  | .peakNext op => Single s op ∧ s.popped < s.published.length
  | .peakEntry op tail => tail = s.buf.tail ∧ Single s op ∧ s.popped < s.published.length
  | .failed => False

structure ConsumerInv (n : Nat) (s : Shared α) (c : Consumer) : Prop where
  sem_eq : s.buf.sem + s.popped + c.hold = s.pushed.length
  knows : c.Knows n s

/-! ### What each thread leaves alone -/

structure ProducerGuar (s s' : Shared α) : Prop where
  popped_eq : s'.popped = s.popped
  tail_eq : s'.buf.tail = s.buf.tail
  pushed_sem : s'.buf.sem + s.pushed.length = s.buf.sem + s'.pushed.length
  published : s'.published = s.published ∨ ∃ data, s'.published = s.published ++ [data]
  window_sub : s.window ⊆ s'.window
  snapshot_mem : (s'.popped, s'.published.drop s'.popped) ∈ s'.window

structure ConsumerGuar (n : Nat) (s s' : Shared α) : Prop where
  size_eq : s'.buf.size = s.buf.size
  head_eq : s'.buf.head = s.buf.head
  entries_eq : s'.buf.entries = s.buf.entries
  free_eq : s'.buf.free = s.buf.free
  freed_eq : s'.buf.freed = s.buf.freed
  published_eq : s'.published = s.published
  pushed_eq : s'.pushed = s.pushed
  seen_eq : s'.seen = s.seen
  popped_le : s.popped ≤ s'.popped
  popped_published : s'.popped ≤ s.published.length
  tail_eq : s'.buf.tail = (s'.popped + n) % (n + 1)

theorem Cells.stable {n : Nat} {s s' : Shared α} {cleared : Nat} {slot : Option α}
    (g : ConsumerGuar n s s') (h : Cells n s cleared slot) : Cells n s' cleared slot where
  size_eq := g.size_eq.trans h.size_eq
  head_eq := by rw [g.head_eq, g.published_eq, h.head_eq]
  tail_eq := g.tail_eq
  popped_le := by rw [g.published_eq]; exact g.popped_published
  published_le := by rw [g.published_eq]; exact h.published_le.trans (by have := g.popped_le; omega)
  freed_eq := by rw [g.freed_eq, g.published_eq]; exact h.freed_eq
  freed_le := by rw [g.freed_eq]; exact h.freed_le.trans g.popped_le
  cleared_le := by rw [g.freed_eq]; exact h.cleared_le
  room := by rw [g.published_eq]; exact h.room
  cell := by rw [g.entries_eq, g.published_eq]; exact h.cell
  registered := by rw [g.published_eq, g.free_eq]; exact h.registered

theorem Room.stable {n : Nat} {s s' : Shared α} {push : Option α}
    (g : ConsumerGuar n s s') (h : Room n s push) : Room n s' push := by
  intro hp
  obtain ⟨hlt, hfree⟩ := h hp
  rw [g.published_eq, g.free_eq]
  exact ⟨by have := g.popped_le; omega, hfree⟩

theorem Producer.Knows.stable {n : Nat} {s s' : Shared α} {cleared : Nat} {p : Producer α}
    (g : ConsumerGuar n s s') (h : p.Knows n s cleared) : p.Knows n s' cleared := by
  have hp := g.popped_le
  cases p <;> simp only [Producer.Knows, g.published_eq, g.head_eq, g.free_eq] at h ⊢ <;>
    try assumption
  case expiredTail push => exact h.stable g
  case expiredEntry push tail =>
    obtain ⟨hroom, popped, hle, htail, hlt⟩ := h
    exact ⟨hroom.stable g, popped, hle.trans hp, htail, hlt⟩
  case loopHead push i => exact ⟨h.1.stable g, h.2⟩
  case loopTail push i head => exact ⟨h.1, h.2.1.stable g, h.2.2⟩
  case idxHead push i => exact ⟨h.1.stable g, h.2.1, h.2.2.1, by omega⟩
  case entryTest push i idx =>
    exact ⟨h.1, h.2.1.stable g, h.2.2.1, h.2.2.2.1, by omega⟩
  case entryFree push i idx =>
    exact ⟨h.1, h.2.1.stable g, h.2.2.1, h.2.2.2.1, by omega⟩
  case entryClear push i idx => exact ⟨h.1, h.2.1.stable g, h.2.2⟩
  case slotHead data => exact ⟨h.1.stable g, h.2⟩
  case slotWrite data head => exact ⟨h.1, h.2.1.stable g, h.2.2⟩
  case nextHead data => exact ⟨h.1.stable g, h.2⟩
  case nextWrite data head => exact ⟨h.1, h.2.1.stable g, h.2.2⟩

theorem ProducerAt.stable {n : Nat} {s s' : Shared α} {p : Producer α} {cleared : Nat}
    (g : ConsumerGuar n s s') (h : ProducerAt n s p cleared) : ProducerAt n s' p cleared where
  cells := h.cells.stable g
  cleared_eq := by rw [g.freed_eq]; exact h.cleared_eq
  pushed_eq := by rw [g.pushed_eq, g.published_eq]; exact h.pushed_eq
  knows := h.knows.stable g
  seen := by
    intro v hv
    rw [g.seen_eq] at hv
    have := h.seen v hv
    have := g.popped_le
    rw [g.published_eq]
    omega

namespace ProducerGuar

variable {n : Nat} {s s' : Shared α}

theorem length_le (g : ProducerGuar s s') : s.published.length ≤ s'.published.length := by
  rcases g.published with h | ⟨data, h⟩ <;> simp [h]

theorem read (g : ProducerGuar s s') {head count : Nat} (h : Read n s head count) :
    Read n s' head count := by
  obtain ⟨hhead, hle, hfull, hlen, hmem⟩ := h
  have hlen' := g.length_le
  refine ⟨hhead, by rw [g.popped_eq]; exact hle, by rw [g.popped_eq]; exact hfull, by omega, ?_⟩
  rw [g.popped_eq]
  rcases g.published with heq | ⟨data, heq⟩
  · rw [heq]
    exact g.window_sub hmem
  · rw [heq, List.drop_append_of_le_length (by omega),
      List.take_append_of_le_length (by rw [List.length_drop]; omega)]
    exact g.window_sub hmem

theorem single (g : ProducerGuar s s') {op : Peak} (h : Single s op) : Single s' op := by
  intro hop
  have hsnap := g.snapshot_mem
  rw [g.popped_eq] at hsnap ⊢
  rcases h hop with ⟨hlen, hmem⟩ | ⟨x, hx, hmem⟩
  · rcases g.published with heq | ⟨data, heq⟩
    · rw [heq]
      exact .inl ⟨hlen, g.window_sub hmem⟩
    · refine .inr ⟨data, by simp [heq, ← hlen], ?_⟩
      simpa [heq, ← hlen] using hsnap
  · refine .inr ⟨x, ?_, g.window_sub hmem⟩
    rcases g.published with heq | ⟨data, heq⟩
    · rw [heq, hx]
    · rw [heq, List.getElem?_append_left (List.getElem?_eq_some_iff.mp hx).1, hx]

theorem inPop (g : ProducerGuar s s') {inside : Option Peak} (h : InPop s inside) :
    InPop s' inside := by
  intro op hop
  obtain ⟨hlatest, hlt⟩ := h op hop
  have := g.length_le
  exact ⟨hlatest, by rw [g.popped_eq]; omega⟩

end ProducerGuar

theorem Consumer.Knows.stable {n : Nat} {s s' : Shared α} {c : Consumer}
    (g : ProducerGuar s s') (h : c.Knows n s) : c.Knows n s' := by
  have hlen := g.length_le
  cases c <;> simp only [Consumer.Knows, g.popped_eq, g.tail_eq] at h ⊢
  case oldHead op => exact ⟨h.1, fun hw => (h.2 hw).trans_le hlen⟩
  case oldTail op head =>
    obtain ⟨hop, count, hread, hlt, hsingle⟩ := h
    exact ⟨hop, count, g.read hread, hlt, fun hle => g.single (hsingle hle)⟩
  case popSem inside => exact ⟨h.1.trans_le hlen, g.inPop h.2⟩
  case popHead inside => exact g.inPop h
  case popTail inside head =>
    obtain ⟨hin, count, hread, hlt⟩ := h
    exact ⟨g.inPop hin, count, g.read hread, hlt⟩
  case popNext inside => exact g.inPop h
  case popWrite inside tail => exact ⟨h.1, g.inPop h.2⟩
  case peakHead op => exact ⟨g.single h.1, fun hw => (h.2 hw).trans_le hlen⟩
  case peakTail op head =>
    obtain ⟨hs, count, hread, hlt⟩ := h
    exact ⟨g.single hs, count, g.read hread, hlt⟩
  case peakNext op => exact ⟨g.single h.1, h.2.trans_le hlen⟩
  case peakEntry op tail => exact ⟨h.1, g.single h.2.1, h.2.2.trans_le hlen⟩

theorem ConsumerInv.stable {n : Nat} {s s' : Shared α} {c : Consumer}
    (g : ProducerGuar s s') (h : ConsumerInv n s c) : ConsumerInv n s' c where
  sem_eq := by
    have := h.sem_eq
    have := g.pushed_sem
    have := g.popped_eq
    omega
  knows := h.knows.stable g

end Stratus.Common.Rbuf
