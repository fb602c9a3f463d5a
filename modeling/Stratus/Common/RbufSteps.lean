import Stratus.Common.RbufInvariant

/-! Every atomic step of either thread keeps its own assertion and meets its
guarantee, so both assertions hold in every reachable state. -/
namespace Stratus.Common.Rbuf

open Stratus.Lib Stratus.Lib.Cyclic

variable {α : Type} {n : Nat}

/-! ### Producer -/

theorem ProducerGuar.of_record {s : Shared α} {b : Buf α} {e : Event α} {cleared : Nat}
    {slot : Option α} (hn : n < 2 ^ 30) (hc : Cells n (s.record b e) cleared slot)
    (htail : b.tail = s.buf.tail) (hpopped : (s.note e).popped = s.popped)
    (hsem : b.sem + s.pushed.length = s.buf.sem + (s.note e).pushed.length)
    (hpublished : (s.note e).published = s.published ∨
      ∃ data, (s.note e).published = s.published ++ [data]) :
    ProducerGuar s (s.record b e) where
  popped_eq := hpopped
  tail_eq := htail
  pushed_sem := hsem
  published := hpublished
  window_sub := by
    rw [Shared.record_window]
    exact List.subset_cons_self _ _
  snapshot_mem := by
    rw [Shared.record_window, ← hc.snapshot_eq hn]
    exact List.mem_cons_self

/-- A step that only moves the program counter. -/
theorem ProducerAt.move {s : Shared α} {p p' : Producer α} {cleared : Nat} (hn : n < 2 ^ 30)
    (h : ProducerAt n s p cleared) (huncleared : p'.uncleared = p.uncleared)
    (hslot : p'.slot = p.slot) (hpending : p'.pending = p.pending)
    (hknows : p'.Knows n s cleared) :
    ProducerInv n (s.record s.buf .internal) p' ∧
      ProducerGuar s (s.record s.buf .internal) := by
  have hcells : Cells n (s.record s.buf .internal) cleared p.slot := { h.cells with }
  refine ⟨⟨cleared, ?_, ?_, ?_, hknows, h.seen⟩, .of_record hn hcells rfl rfl rfl (.inl rfl)⟩
  · rw [hslot]
    exact hcells
  · rw [huncleared]
    exact h.cleared_eq
  · rw [hpending]
    exact h.pushed_eq

theorem ProducerAt.call {s : Shared α} {call : ProducerCall α} {b : Buf α} {p' : Producer α}
    {cleared : Nat} (hn : n < 2 ^ 30) (h : ProducerAt n s .idle cleared)
    (hcall : Producer.call s.buf call = some (b, p')) :
    ProducerInv n (s.record b .internal) p' ∧ ProducerGuar s (s.record b .internal) := by
  cases call with
  | setFree =>
      cases hcall
      have hcells : Cells n (s.record { s.buf with free := true } .internal) cleared none :=
        { h.cells with registered := fun _ => rfl }
      exact ⟨⟨cleared, hcells, h.cleared_eq, h.pushed_eq, trivial, h.seen⟩,
        .of_record hn hcells rfl rfl rfl (.inl rfl)⟩
  | push data =>
      simp only [Producer.call, Option.ite_none_right_eq_some] at hcall
      obtain ⟨hfree, heq⟩ := hcall
      cases heq
      exact h.move hn rfl rfl rfl hfree
  | freeExpired =>
      simp only [Producer.call, Option.ite_none_right_eq_some] at hcall
      obtain ⟨hfree, heq⟩ := hcall
      cases heq
      exact h.move hn rfl rfl rfl (fun hp => by simp at hp)
  | freeCapacity =>
      cases hcall
      exact h.move hn rfl rfl rfl trivial

/-- What `rbuf_free_expired` leaves behind: everything popped when it last read
`tail` is cleared, so a push that passed its check has a free slot after `head`. -/
theorem ProducerAt.finish {s : Shared α} {p : Producer α} {push : Option α}
    {cleared popped : Nat} (hn : n < 2 ^ 30) (h : ProducerAt n s p cleared)
    (huncleared : p.uncleared = 0) (hslot : p.slot = none) (hpending : p.pending = [])
    (hroom : Room n s push) (hread : push.isSome → s.published.length < popped + n)
    (hcleared : popped ≤ cleared) :
    ProducerInv n (s.record s.buf .internal) (afterExpired push) ∧
      ProducerGuar s (s.record s.buf .internal) := by
  cases push with
  | none => exact h.move hn huncleared.symm hslot.symm hpending.symm trivial
  | some data =>
      refine h.move hn huncleared.symm hslot.symm hpending.symm ⟨hroom, ?_⟩
      have := hread rfl
      omega

/-- The guard of `rbuf_free_expired` reads the last popped slot: when it is
`NULL` nothing popped is left. -/
theorem Cells.cleared_of_empty {s : Shared α} {cleared popped : Nat} {slot : Option α}
    (h : Cells n s cleared slot) (hle : popped ≤ s.popped)
    (hempty : s.buf.entries ((popped + n) % (n + 1)) = none) : popped ≤ cleared := by
  by_contra hlt
  have hpos : 0 < popped := by omega
  have hslot : (popped + n) % (n + 1) = (popped - 1) % (n + 1) := by
    rw [show popped + n = popped - 1 + (n + 1) by omega, Nat.add_mod_right]
  have hpublished : popped - 1 < s.published.length := by
    have := h.popped_le
    omega
  rw [hslot, h.entry (by omega) hpublished] at hempty
  exact Option.some_ne_none _ hempty

/-- Slot `head + i` holds the oldest entry left, or nothing yet. -/
theorem Cells.loop_entry {s : Shared α} {cleared i : Nat} {slot : Option α}
    (h : Cells n s cleared slot) (hi : 1 ≤ i)
    (hle : s.published.length + i ≤ cleared + (n + 1))
    (hlt : s.published.length + i < s.popped + (n + 1)) :
    s.buf.entries ((s.published.length + i) % (n + 1)) =
      if s.published.length + i = cleared + (n + 1) then s.published[cleared]? else none := by
  have hroom := h.room
  split
  · next heq =>
    rw [heq, Nat.add_mod_right, h.cell cleared le_rfl (by omega),
      if_neg (by have := h.popped_le; omega)]
  · next hne =>
    rw [h.cell _ (by have := h.cleared_le; have := h.freed_length_le; omega) (by omega),
      if_neg (by omega), List.getElem?_eq_none (by omega)]

/-- The callback is called on the oldest entry left. -/
theorem Cells.free {s : Shared α} (h : Cells n s s.buf.freed.length none)
    (hlt : s.buf.freed.length < s.popped) :
    Cells n (s.record { s.buf with
      freed := s.buf.freed ++ (s.buf.entries (s.buf.freed.length % (n + 1))).toList } .internal)
      s.buf.freed.length none := by
  have hlt' : s.buf.freed.length < s.published.length := hlt.trans_le h.popped_le
  rw [h.entry le_rfl hlt', Option.toList_some]
  exact
    { h with
      freed_eq := by
        simp only [Shared.record_buf, Shared.record_published, Shared.note, List.length_append,
          List.length_singleton]
        rw [List.take_add_one, ← h.freed_eq, List.getElem?_eq_getElem hlt', Option.toList_some]
      freed_le := by simpa [Shared.note] using Nat.succ_le_of_lt hlt
      cleared_le := by simp }

/-- Its slot is cleared: one turn of the ring now starts one entry later. -/
theorem Cells.clear {s : Shared α} {cleared : Nat} (h : Cells n s cleared none)
    (hlt : cleared < s.buf.freed.length) :
    Cells n (s.record (s.buf.store (cleared % (n + 1)) none) .internal) (cleared + 1) none :=
  { h with
    cleared_le := hlt
    room := by
      have := h.room
      simp only [Shared.record_published, Shared.note]
      omega
    cell := by
      intro k hk hk'
      change Function.update s.buf.entries (cleared % (n + 1)) none (k % (n + 1)) =
        if k = s.published.length then none else s.published[k]?
      by_cases hlast : k = cleared + (n + 1)
      · rw [hlast, Nat.add_mod_right, Function.update_self, List.getElem?_eq_none
          (by have := h.room; omega), ite_self]
      · rw [Function.update_of_ne _, h.cell k (by omega) (by omega)]
        intro hmod
        have := mod_inj_of_window (by omega) (by omega) le_rfl (by omega) hmod
        omega }

/-- The entry is stored at `head`. -/
theorem Cells.fill {s : Shared α} {cleared : Nat} (h : Cells n s cleared none) (data : α) :
    Cells n (s.record (s.buf.store s.buf.head (some data)) .internal) cleared (some data) :=
  { h with
    cell := by
      intro k hk hk'
      have hroom := h.room
      have hle := h.cleared_le
      have hlen := h.freed_length_le
      change Function.update s.buf.entries s.buf.head (some data) (k % (n + 1)) =
        if k = s.published.length then some data else s.published[k]?
      rw [h.head_eq]
      by_cases hlast : k = s.published.length
      · rw [hlast, Function.update_self, if_pos rfl]
      · rw [Function.update_of_ne _, h.cell k hk hk', if_neg hlast, if_neg hlast]
        intro hmod
        exact hlast (mod_inj_of_window hk hk' (by omega) hroom hmod) }

/-- `head` passes it. -/
theorem Cells.advance {s : Shared α} {cleared next : Nat} {data : α}
    (h : Cells n s cleared (some data)) (hroom : Room n s (some data))
    (hlt : s.published.length < cleared + n)
    (hnext : next = (s.published.length + 1) % (n + 1)) :
    Cells n (s.record { s.buf with head := next } (.append data)) cleared none := by
  obtain ⟨hpopped, hfree⟩ := hroom rfl
  have hlen := h.freed_length_le
  have hcl := h.cleared_le
  have hpop := h.popped_le
  have hpub : (s.record { s.buf with head := next } (.append data)).published.length =
      s.published.length + 1 := by simp [Shared.note]
  exact
    { size_eq := h.size_eq
      head_eq := by rw [hpub]; exact hnext
      tail_eq := h.tail_eq
      popped_le := by rw [hpub]; exact hpop.trans (Nat.le_succ _)
      published_le := by rw [hpub]; exact hpopped
      freed_eq := by
        change s.buf.freed = (s.published ++ [data]).take s.buf.freed.length
        rw [List.take_append_of_le_length hlen]
        exact h.freed_eq
      freed_le := h.freed_le
      cleared_le := hcl
      room := by rw [hpub]; omega
      cell := by
        intro k hk hk'
        rw [hpub]
        change s.buf.entries (k % (n + 1)) =
          if k = s.published.length + 1 then none else (s.published ++ [data])[k]?
        rw [h.cell k hk hk']
        by_cases hnew : k = s.published.length
        · rw [if_pos hnew, if_neg (by omega), hnew, List.getElem?_concat_length]
        · rw [if_neg hnew]
          rcases Nat.lt_or_gt_of_ne hnew with hbefore | hafter
          · rw [if_neg (by omega), List.getElem?_append_left hbefore]
          · rw [List.getElem?_eq_none (by omega), List.getElem?_eq_none (by simp; omega), ite_self]
      registered := fun _ => hfree }

/-- One place after an index, on the counts behind them. -/
theorem index_succ {k : Nat} (hn : n < 2 ^ 30) :
    index (n + 1) (k % (n + 1)) 1 = (k + 1) % (n + 1) := by
  have : k % (n + 1) < n + 1 := Nat.mod_lt _ (by omega)
  rw [index_eq (by omega), Nat.mod_add_mod]

theorem ProducerAt.step {s : Shared α} {p p' : Producer α} {b : Buf α} {e : Event α}
    {cleared : Nat} (hn : n < 2 ^ 30) (h : ProducerAt n s p cleared)
    (hstep : p.step s.buf = some (b, p', e)) :
    ProducerInv n (s.record b e) p' ∧ ProducerGuar s (s.record b e) := by
  obtain ⟨hcells, hcleared, hpushed, hknows, hseen⟩ := id h
  have hsize := hcells.size_eq
  cases p with
  | idle => simp [Producer.step] at hstep
  | capHead =>
      cases hstep
      exact h.move hn rfl rfl rfl rfl
  | capTail head =>
      cases hstep
      obtain rfl : head = s.buf.head := hknows
      have hc : Cells n (s.record s.buf
          (.capacity (freeCapacity s.buf.size s.buf.head s.buf.tail))) cleared none :=
        { hcells with }
      refine ⟨⟨cleared, hc, hcleared, hpushed, trivial, ?_⟩,
        .of_record hn hc rfl rfl rfl (.inl rfl)⟩
      intro v hv
      have hv' : freeCapacity s.buf.size s.buf.head s.buf.tail = v := Option.some.inj hv
      rw [hcells.free_eq hn] at hv'
      have := hcells.popped_le
      simp only [Shared.record_published, Shared.record_popped, Shared.note]
      omega
  | pushHead data =>
      cases hstep
      exact h.move hn rfl rfl rfl ⟨rfl, hknows⟩
  | pushTail data head =>
      obtain ⟨rfl, hfree⟩ := hknows
      have hcap := hcells.free_eq hn
      simp only [Producer.step] at hstep
      split at hstep
      · cases hstep
        have hc : Cells n (s.record s.buf (.full data)) cleared none := { hcells with }
        refine ⟨⟨cleared, hc, hcleared, hpushed, trivial, ?_⟩,
          .of_record hn hc rfl rfl rfl (.inl rfl)⟩
        intro v hv
        cases hv
      · next hne =>
        cases hstep
        refine h.move hn rfl rfl rfl (fun _ => ⟨?_, hfree⟩)
        have := hcells.published_le
        omega
  | expiredTail push =>
      cases hstep
      exact h.move hn rfl rfl rfl
        ⟨hknows, s.popped, le_rfl, hcells.tail_eq, fun hp => (hknows hp).1⟩
  | expiredEntry push tail =>
      obtain ⟨hroom, popped, hle, rfl, hread⟩ := hknows
      simp only [Producer.step] at hstep
      split at hstep
      · cases hstep
        refine h.move hn rfl rfl rfl ⟨hroom, le_rfl, ?_⟩
        have := hcells.room
        omega
      · next hempty =>
        cases hstep
        exact h.finish hn rfl rfl rfl hroom hread (hcells.cleared_of_empty hle hempty)
  | loopHead push i =>
      cases hstep
      exact h.move hn rfl rfl rfl ⟨rfl, hknows⟩
  | loopTail push i head =>
      obtain ⟨rfl, hroom, hi, hle⟩ := hknows
      have hpub := hcells.published_le
      have hpop := hcells.popped_le
      simp only [Producer.step] at hstep
      rw [hcells.used_eq hn, hsize, cInt_eq (by omega) (by omega)] at hstep
      split at hstep
      · cases hstep
        exact h.move hn rfl rfl rfl ⟨hroom, hi, hle, by omega⟩
      · cases hstep
        have hcl : s.popped ≤ cleared := by omega
        exact h.finish hn rfl rfl rfl hroom (fun hp => (hroom hp).1) hcl
  | idxHead push i =>
      cases hstep
      obtain ⟨hroom, hi, hle, hlt⟩ := hknows
      refine h.move hn rfl rfl rfl ⟨?_, hroom, hi, hle, hlt⟩
      have hhead : s.buf.head < n + 1 := by
        rw [hcells.head_eq]
        exact Nat.mod_lt _ (by omega)
      have hpub := hcells.popped_le
      rw [index_eq (by omega), hsize, hcells.head_eq, Nat.mod_add_mod]
  | entryTest push i idx =>
      obtain ⟨rfl, hroom, hi, hle, hlt⟩ := hknows
      have hentry := hcells.loop_entry hi hle hlt
      simp only [Producer.step] at hstep
      split at hstep
      · next data hdata =>
        cases hstep
        rw [hdata] at hentry
        split at hentry
        · next heq =>
          refine h.move hn rfl rfl rfl ⟨?_, hroom, hi, heq, by omega⟩
          rw [heq, Nat.add_mod_right]
        · exact absurd hentry (by simp)
      · next hnone =>
        cases hstep
        rw [hnone] at hentry
        refine h.move hn rfl rfl rfl ⟨hroom, by omega, ?_⟩
        split at hentry
        · next heq =>
          -- the oldest entry left is there, so its slot is not `NULL`
          have hlt' : cleared < s.published.length := by
            have := hcells.popped_le
            omega
          rw [List.getElem?_eq_getElem hlt'] at hentry
          exact absurd hentry (by simp)
        · omega
  | entryFree push i idx =>
      cases hstep
      obtain ⟨rfl, hroom, hi, heq, hlt⟩ := hknows
      obtain rfl : cleared = s.buf.freed.length := hcleared
      have hc := hcells.free hlt
      have hlt' : s.buf.freed.length < s.published.length := hlt.trans_le hcells.popped_le
      refine ⟨⟨_, hc, ?_, hpushed, ⟨rfl, hroom, hi, heq⟩, hseen⟩,
        .of_record hn hc rfl rfl rfl (.inl rfl)⟩
      simp [Producer.uncleared, hcells.entry le_rfl hlt']
  | entryClear push i idx =>
      cases hstep
      obtain ⟨rfl, hroom, hi, heq⟩ := hknows
      have hcleared' : cleared + 1 = s.buf.freed.length := hcleared
      have hc := hcells.clear (by omega)
      exact ⟨⟨_, hc, hcleared', hpushed, ⟨hroom, by omega, by
        simp only [Shared.record_published, Shared.note]
        omega⟩, hseen⟩, .of_record hn hc rfl rfl rfl (.inl rfl)⟩
  | slotHead data =>
      cases hstep
      exact h.move hn rfl rfl rfl ⟨rfl, hknows⟩
  | slotWrite data head =>
      cases hstep
      obtain ⟨rfl, hroom, hlt⟩ := hknows
      have hc := hcells.fill data
      exact ⟨⟨_, hc, hcleared, hpushed, ⟨hroom, hlt⟩, hseen⟩,
        .of_record hn hc rfl rfl rfl (.inl rfl)⟩
  | nextHead data =>
      cases hstep
      exact h.move hn rfl rfl rfl ⟨rfl, hknows⟩
  | nextWrite data head =>
      obtain ⟨rfl, hroom, hlt⟩ := hknows
      have hnext : index s.buf.size s.buf.head 1 = (s.published.length + 1) % (n + 1) := by
        rw [hsize, hcells.head_eq, index_succ hn]
      simp only [Producer.step] at hstep
      rw [hnext] at hstep
      cases hstep
      have hc := hcells.advance hroom hlt rfl
      refine ⟨⟨_, hc, hcleared, ?_, trivial, ?_⟩,
        .of_record hn hc rfl rfl rfl (.inr ⟨data, rfl⟩)⟩
      · have hpushed' : s.pushed ++ [] = s.published := hpushed
        rw [List.append_nil] at hpushed'
        simp [Shared.note, Producer.pending, hpushed']
      · intro v hv
        cases hv
  | post data =>
      cases hstep
      have hc : Cells n (s.record { s.buf with sem := s.buf.sem + 1 } (.pushed data))
          cleared none := { hcells with }
      refine ⟨⟨_, hc, hcleared, ?_, trivial, hseen⟩,
        .of_record hn hc rfl rfl ?_ (.inl rfl)⟩
      · simpa [Shared.note, Producer.pending] using hpushed
      · simp only [Shared.note, List.length_append, List.length_singleton]
        omega

theorem producer_preserves {s s' : Shared α} {p p' : Producer α} {call : Option (ProducerCall α)}
    {e : Event α} (hn : n < 2 ^ 30) (h : ProducerInv n s p)
    (hnext : producerNext s p call = some (s', p', e)) :
    ProducerInv n s' p' ∧ ProducerGuar s s' := by
  obtain ⟨cleared, h⟩ := h
  cases call with
  | none =>
      simp only [producerNext, Option.map_eq_some_iff] at hnext
      obtain ⟨⟨b, p₁, e₁⟩, hstep, heq⟩ := hnext
      cases heq
      exact h.step hn hstep
  | some call =>
      simp only [producerNext] at hnext
      split at hnext
      · simp only [Option.map_eq_some_iff] at hnext
        obtain ⟨⟨b, p₁⟩, hcall, heq⟩ := hnext
        cases heq
        exact h.call hn hcall
      · cases hnext

/-! ### Consumer -/

/-- What every step of the consumer has in common: it writes only `tail` and the
semaphore. -/
theorem ConsumerGuar.of_record {s : Shared α} {b : Buf α} {e : Event α}
    (hb : b = { s.buf with tail := b.tail, sem := b.sem })
    (hpublished : (s.note e).published = s.published) (hpushed : (s.note e).pushed = s.pushed)
    (hseen : (s.note e).seen = s.seen) (hpopped : s.popped ≤ (s.note e).popped)
    (hle : (s.note e).popped ≤ s.published.length)
    (htail : b.tail = ((s.note e).popped + n) % (n + 1)) :
    ConsumerGuar n s (s.record b e) where
  size_eq := by rw [Shared.record_buf, hb]
  head_eq := by rw [Shared.record_buf, hb]
  entries_eq := by rw [Shared.record_buf, hb]
  free_eq := by rw [Shared.record_buf, hb]
  freed_eq := by rw [Shared.record_buf, hb]
  published_eq := hpublished
  pushed_eq := hpushed
  seen_eq := hseen
  popped_le := hpopped
  popped_published := hle
  tail_eq := htail

/-- What the consumer uses of the producer's assertion. -/
structure View (n : Nat) (s : Shared α) : Prop where
  cells : ∃ cleared slot, Cells n s cleared slot
  pushed_le : s.pushed.length ≤ s.published.length

theorem ProducerInv.view {s : Shared α} {p : Producer α} (h : ProducerInv n s p) : View n s := by
  obtain ⟨cleared, h⟩ := h
  refine ⟨⟨cleared, p.slot, h.cells⟩, ?_⟩
  rw [← h.pushed_eq, List.length_append]
  omega

theorem View.stable {s s' : Shared α} (g : ConsumerGuar n s s') (h : View n s) : View n s' := by
  obtain ⟨⟨cleared, slot, hc⟩, hpushed⟩ := h
  exact ⟨⟨cleared, slot, hc.stable g⟩, by rw [g.pushed_eq, g.published_eq]; exact hpushed⟩

namespace View

variable {s : Shared α}

theorem tail_eq (h : View n s) : s.buf.tail = (s.popped + n) % (n + 1) := by
  obtain ⟨_, _, hc⟩ := h.cells
  exact hc.tail_eq

theorem popped_le (h : View n s) : s.popped ≤ s.published.length := by
  obtain ⟨_, _, hc⟩ := h.cells
  exact hc.popped_le

/-- What a read of `head` a moment ago says about the queue of that moment. -/
theorem used_read (h : View n s) (hn : n < 2 ^ 30) {head count : Nat} (hr : Read n s head count) :
    usedCapacity s.buf.size head s.buf.tail = (count - s.popped : Nat) := by
  obtain ⟨_, _, hc⟩ := h.cells
  obtain ⟨rfl, hle, hfull, _, _⟩ := hr
  rw [hc.size_eq, hc.tail_eq, usedCapacity_eq hn hle hfull]

theorem snapshot_eq (h : View n s) (hn : n < 2 ^ 30) :
    s.snapshot = (s.popped, s.published.drop s.popped) := by
  obtain ⟨_, _, hc⟩ := h.cells
  exact hc.snapshot_eq hn

/-- The entry after `tail` of a non-empty queue is the oldest one. -/
theorem next_entry (h : View n s) (hn : n < 2 ^ 30) (hlt : s.popped < s.published.length) :
    s.buf.entries (index s.buf.size s.buf.tail 1) = some s.published[s.popped] := by
  obtain ⟨cleared, _, hc⟩ := h.cells
  have hslot := hc.slot_after_tail 0
  have htail : s.buf.tail < n + 1 := by
    rw [hc.tail_eq]
    exact Nat.mod_lt _ (by omega)
  rw [index_eq (by omega), ← Nat.add_zero (s.buf.tail + 1), hslot, Nat.add_zero,
    hc.entry (by have := hc.cleared_le; have := hc.freed_le; omega) hlt]

end View

/-- A step of the consumer that writes nothing, or the semaphore only. -/
theorem ConsumerInv.move {s : Shared α} {c c' : Consumer} {b : Buf α} (hn : n < 2 ^ 30)
    (h : ConsumerInv n s c) (hv : View n s) (hb : b = { s.buf with sem := b.sem })
    (hhold : b.sem + c'.hold = s.buf.sem + c.hold)
    (hknows : View n (s.record b .internal) →
      (s.popped, s.published.drop s.popped) ∈ (s.record b .internal).window →
      c'.Knows n (s.record b .internal)) :
    ConsumerInv n (s.record b .internal) c' ∧ ConsumerGuar n s (s.record b .internal) := by
  have htail : b.tail = s.buf.tail := by rw [hb]
  have hg : ConsumerGuar n s (s.record b .internal) :=
    .of_record (by rw [htail]; exact hb) rfl rfl rfl le_rfl hv.popped_le (htail.trans hv.tail_eq)
  have hv' := hv.stable hg
  refine ⟨⟨?_, hknows hv' ?_⟩, hg⟩
  · have := h.sem_eq
    simp only [Shared.record_buf, Shared.record_popped, Shared.record_pushed, Shared.note]
    omega
  · have hsnap := hv'.snapshot_eq hn
    rw [Shared.record_window, hsnap]
    exact List.mem_cons_self

/-- Reading `head` now. -/
theorem Read.now {s : Shared α} {b : Buf α} (hv : View n s)
    (hmem : (s.popped, s.published.drop s.popped) ∈ (s.record b .internal).window) :
    Read n (s.record b .internal) s.buf.head s.published.length := by
  obtain ⟨_, _, hc⟩ := hv.cells
  refine ⟨hc.head_eq, hc.popped_le, hc.published_le, le_rfl, ?_⟩
  simp only [Shared.record_popped, Shared.record_published, Shared.note]
  rw [List.take_of_length_le (by simp)]
  exact hmem

theorem Single.keep {s : Shared α} {b : Buf α} {op : Peak} (h : Single s op) :
    Single (s.record b .internal) op := by
  intro hop
  rcases h hop with ⟨hlen, hmem⟩ | ⟨x, hx, hmem⟩
  · exact .inl ⟨hlen, List.mem_cons_of_mem _ hmem⟩
  · exact .inr ⟨x, hx, List.mem_cons_of_mem _ hmem⟩

/-- `_rbuf_pop_old` reads `head` when at most one entry is there. -/
theorem Single.now {s : Shared α} {b : Buf α} {op : Peak} (hv : View n s)
    (hmem : (s.popped, s.published.drop s.popped) ∈ (s.record b .internal).window)
    (hle : s.published.length ≤ s.popped + 1) : Single (s.record b .internal) op := by
  intro _
  rcases Nat.eq_or_lt_of_le hv.popped_le with heq | hlt
  · rw [List.drop_eq_nil_of_le heq.ge] at hmem
    exact .inl ⟨heq.symm, hmem⟩
  · rw [List.drop_eq_getElem_cons hlt, List.drop_eq_nil_of_le hle] at hmem
    exact .inr ⟨_, List.getElem?_eq_getElem hlt, hmem⟩

theorem ConsumerInv.step {s : Shared α} {c c' : Consumer} {b : Buf α} {e : Event α}
    (hn : n < 2 ^ 30) (h : ConsumerInv n s c) (hv : View n s)
    (hstep : c.step s.buf = some (b, c', e)) :
    ConsumerInv n (s.record b e) c' ∧ ConsumerGuar n s (s.record b e) := by
  have hknows := h.knows
  have hsem := h.sem_eq
  have hpushed := hv.pushed_le
  cases c with
  | idle => cases hstep
  | waitSem op =>
      simp only [Consumer.step, Option.ite_none_right_eq_some] at hstep
      obtain ⟨hpos, heq⟩ := hstep
      cases heq
      exact h.move hn hv rfl (by simp only [Consumer.hold]; omega) (fun _ _ => trivial)
  | waitPost op =>
      cases hstep
      have hlt : s.popped < s.published.length := by
        simp only [Consumer.hold] at hsem
        omega
      obtain ⟨wait, latest⟩ := op
      cases latest
      · exact h.move hn hv rfl rfl (fun _ _ => ⟨fun hop => by simp at hop, fun _ => hlt⟩)
      · exact h.move hn hv rfl rfl (fun _ _ => ⟨rfl, fun _ => hlt⟩)
  | oldHead op =>
      cases hstep
      obtain ⟨hlatest, hwait⟩ := hknows
      exact h.move hn hv rfl rfl (fun _ hmem =>
        ⟨hlatest, _, Read.now hv hmem, hwait, fun hle => Single.now hv hmem hle⟩)
  | oldTail op head =>
      obtain ⟨hlatest, count, hread, hwait, hsingle⟩ := hknows
      simp only [Consumer.step] at hstep
      rw [hv.used_read hn hread] at hstep
      have hcount : s.popped ≤ count := hread.2.1
      have hlen : count ≤ s.published.length := hread.2.2.2.1
      split at hstep
      · next hlt =>
        cases hstep
        have hlt' : s.popped + 1 < s.published.length := by omega
        refine h.move hn hv rfl rfl (fun _ _ => ⟨by
          simp only [Shared.record_popped, Shared.record_published, Shared.note]
          omega, ?_⟩)
        intro op' hop'
        cases hop'
        exact ⟨hlatest, hlt'⟩
      · next hle =>
        cases hstep
        exact h.move hn hv rfl rfl (fun _ _ => ⟨(hsingle (by omega)).keep, fun hw =>
          (hwait hw).trans_le hlen⟩)
  | popSem inside =>
      simp only [Consumer.step, Option.ite_none_right_eq_some] at hstep
      obtain ⟨hpos, heq⟩ := hstep
      cases heq
      exact h.move hn hv rfl (by simp only [Consumer.hold]; omega) (fun _ _ => hknows.2)
  | popHead inside =>
      cases hstep
      refine h.move hn hv rfl rfl (fun _ hmem => ⟨hknows, _, Read.now hv hmem, ?_⟩)
      simp only [Consumer.hold] at hsem
      simp only [Shared.record_popped, Shared.note]
      omega
  | popTail inside head =>
      obtain ⟨hin, count, hread, hlt⟩ := hknows
      simp only [Consumer.step] at hstep
      rw [hv.used_read hn hread, if_pos (by omega)] at hstep
      cases hstep
      exact h.move hn hv rfl rfl (fun _ _ => hin)
  | popNext inside =>
      cases hstep
      exact h.move hn hv rfl rfl (fun _ _ => ⟨rfl, hknows⟩)
  | popWrite inside tail =>
      obtain ⟨rfl, hin⟩ := hknows
      simp only [Consumer.hold] at hsem
      have hnext : index s.buf.size s.buf.tail 1 = (s.popped + 1 + n) % (n + 1) := by
        obtain ⟨_, _, hc⟩ := hv.cells
        rw [hc.size_eq, hc.tail_eq, index_succ hn]
        congr 1
        omega
      simp only [Consumer.step] at hstep
      rw [hnext] at hstep
      cases hstep
      refine ⟨⟨?_, ?_⟩, .of_record rfl rfl rfl rfl (Nat.le_succ _) (by
        simp only [Shared.note]
        omega) rfl⟩
      · cases inside <;> simp only [Shared.record_buf, Shared.record_popped, Shared.record_pushed,
          Shared.note, afterPop, Consumer.hold] <;> omega
      · cases inside with
        | none => trivial
        | some op =>
            obtain ⟨hlatest, hlt⟩ := hin op rfl
            exact ⟨hlatest, fun _ => hlt⟩
  | peakHead op =>
      cases hstep
      exact h.move hn hv rfl rfl (fun _ hmem => ⟨hknows.1.keep, _, Read.now hv hmem, hknows.2⟩)
  | peakTail op head =>
      obtain ⟨hsingle, count, hread, hwait⟩ := hknows
      have hlen : count ≤ s.published.length := hread.2.2.2.1
      simp only [Consumer.step] at hstep
      rw [hv.used_read hn hread] at hstep
      split at hstep
      · next hzero =>
        split at hstep
        · next hw =>
          have := hwait hw
          omega
        · cases hstep
          exact ⟨⟨hsem, trivial⟩, .of_record rfl rfl rfl rfl le_rfl hv.popped_le hv.tail_eq⟩
      · next hne =>
        cases hstep
        exact h.move hn hv rfl rfl (fun _ _ => ⟨hsingle.keep, by
          simp only [Shared.record_popped, Shared.record_published, Shared.note]
          omega⟩)
  | peakNext op =>
      cases hstep
      exact h.move hn hv rfl rfl (fun _ _ => ⟨rfl, hknows.1.keep, hknows.2⟩)
  | peakEntry op tail =>
      obtain ⟨rfl, hsingle, hlt⟩ := hknows
      simp only [Consumer.step] at hstep
      rw [hv.next_entry hn hlt] at hstep
      cases hstep
      exact ⟨⟨hsem, trivial⟩, .of_record rfl rfl rfl rfl le_rfl hv.popped_le hv.tail_eq⟩
  | failed => cases hstep

theorem ConsumerInv.call {s : Shared α} {c' : Consumer} {call : ConsumerCall} (hn : n < 2 ^ 30)
    (h : ConsumerInv n s .idle) (hv : View n s) (hcall : Consumer.call s.buf call = some c') :
    ConsumerInv n { s with window := [s.snapshot] } c' ∧
      ConsumerGuar n s { s with window := [s.snapshot] } := by
  have hg : ConsumerGuar n s { s with window := [s.snapshot] } :=
    ⟨rfl, rfl, rfl, rfl, rfl, rfl, rfl, rfl, le_rfl, hv.popped_le, hv.tail_eq⟩
  refine ⟨?_, hg⟩
  have hsem := h.sem_eq
  cases call with
  | peak op =>
      obtain ⟨wait, latest⟩ := op
      cases hcall
      cases wait <;> cases latest
      · exact ⟨hsem, fun hop => by simp at hop, fun hop => by simp at hop⟩
      · exact ⟨hsem, rfl, fun hop => by simp at hop⟩
      · exact ⟨hsem, trivial⟩
      · exact ⟨hsem, trivial⟩
  | pop =>
      simp only [Consumer.call, Option.ite_none_right_eq_some] at hcall
      obtain ⟨hpos, heq⟩ := hcall
      cases heq
      obtain ⟨_, _, hc⟩ := hv.cells
      rw [hc.used_eq hn] at hpos
      exact ⟨hsem, by change s.popped < s.published.length; omega, fun op hop => by cases hop⟩

theorem consumer_preserves {s s' : Shared α} {c c' : Consumer} {call : Option ConsumerCall}
    {e : Event α} (hn : n < 2 ^ 30) (h : ConsumerInv n s c) (hv : View n s)
    (hnext : consumerNext s c call = some (s', c', e)) :
    ConsumerInv n s' c' ∧ ConsumerGuar n s s' := by
  cases call with
  | none =>
      simp only [consumerNext, Option.map_eq_some_iff] at hnext
      obtain ⟨⟨b, c₁, e₁⟩, hstep, heq⟩ := hnext
      cases heq
      exact h.step hn hv hstep
  | some call =>
      simp only [consumerNext] at hnext
      split at hnext
      · simp only [Option.map_eq_some_iff] at hnext
        obtain ⟨c₁, hcall, heq⟩ := hnext
        cases heq
        exact h.call hn hv hcall
      · cases hnext

/-! ### Every reachable state -/

theorem start_inv (n : Nat) : ProducerInv n (Shared.start n : Shared α) .idle := by
  refine ⟨0, ?_, rfl, rfl, trivial, fun v hv => by cases hv⟩
  exact
    { size_eq := rfl
      head_eq := (Nat.zero_mod _).symm
      tail_eq := by
        change n = (0 + n) % (n + 1)
        rw [Nat.zero_add, Nat.mod_eq_of_lt (Nat.lt_succ_self n)]
      popped_le := le_rfl
      published_le := Nat.zero_le _
      freed_eq := rfl
      freed_le := le_rfl
      cleared_le := le_rfl
      room := by
        change 0 < 0 + (n + 1)
        omega
      cell := fun k _ _ => by
        change none = if k = 0 then none else ([] : List α)[k]?
        simp
      registered := fun hne => absurd rfl hne }

theorem reachable_inv {s : Shared α} {p : Producer α} {c : Consumer} (hn : n < 2 ^ 30)
    (hs : Reachable n s p c) : ProducerInv n s p ∧ ConsumerInv n s c := by
  refine Threads.rely_guarantee (ProducerInv n) (ConsumerInv n) ProducerGuar (ConsumerGuar n)
    ?_ ?_ ?_ ?_ ?_ hs
  · rintro s p c ⟨rfl, rfl, rfl⟩
    exact ⟨start_inv n, rfl, trivial⟩
  · rintro s p c s' p' hp _ ⟨call, e, hnext⟩
    exact producer_preserves hn hp hnext
  · rintro s p c s' c' hp hc ⟨call, e, hnext⟩
    exact consumer_preserves hn hc hp.view hnext
  · rintro s s' p hg ⟨cleared, hp⟩
    exact ⟨cleared, hp.stable hg⟩
  · rintro s s' c hg hc
    exact hc.stable hg

end Stratus.Common.Rbuf
