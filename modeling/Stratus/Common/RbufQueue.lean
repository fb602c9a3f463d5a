import Stratus.Common.RbufSteps

/-! The pointer queue as a bounded first-in first-out queue.  The abstract queue
is read off the memory; an append takes effect when `head` is written, a removal
when `tail` is written, and a peak at some moment between its call and return. -/
namespace Stratus.Common.Rbuf

open Stratus.Lib

variable {α : Type} {n : Nat}

/-- What one step of the producer does to the queue. -/
def ProducerSpec (n : Nat) (s s' : Shared α) : Event α → Prop
  | .internal => s'.buf.queue = s.buf.queue
  | .pushed _ => s'.buf.queue = s.buf.queue ∧ s'.pushed = s'.published
  | .append data => s.buf.queue.length < n ∧ s'.buf.queue = s.buf.queue ++ [data]
  | .full _ => s.buf.queue.length = n ∧ s'.buf.queue = s.buf.queue ∧
      ∀ v, s.seen = some v → v ≤ 0
  | .capacity value => value = n - s.buf.queue.length ∧ s'.buf.queue = s.buf.queue
  | .remove | .peaked .. => False

/-- What a peak function may return.  `window` lists the moments of the call, each
with the number of entries removed so far and the queue. -/
def PeakSpec (s : Shared α) (op : Peak) : Option α → Prop
  | none => op.wait = false ∧ (s.popped, []) ∈ s.window
  | some x => s.buf.queue.head? = some x ∧ (op.latest → (s.popped, [x]) ∈ s.window)

/-- What one step of the consumer does to the queue.  Inside a latest variant the
newest entry is never removed. -/
def ConsumerSpec (s s' : Shared α) (c : Consumer) : Event α → Prop
  | .internal => s'.buf.queue = s.buf.queue
  | .remove => (∃ x, s.buf.queue = x :: s'.buf.queue) ∧
      ∀ op tail, c = .popWrite (some op) tail → s'.buf.queue ≠ []
  | .peaked op data => s'.buf.queue = s.buf.queue ∧ PeakSpec s op data
  | .append _ | .pushed _ | .full _ | .capacity _ => False

/-- How many more accesses the producer's current call can make. -/
def Producer.rank (n : Nat) : Producer α → Nat
  | .idle => 0
  | .capHead => 2
  | .capTail _ => 1
  | .pushHead _ => 6 * (n + 1) + 14
  | .pushTail .. => 6 * (n + 1) + 13
  | .expiredTail _ => 6 * (n + 1) + 12
  | .expiredEntry .. => 6 * (n + 1) + 11
  | .loopHead _ i => 6 * (n + 2 - i) + 10
  | .loopTail _ i _ => 6 * (n + 2 - i) + 9
  | .idxHead _ i => 6 * (n + 2 - i) + 8
  | .entryTest _ i _ => 6 * (n + 2 - i) + 7
  | .entryFree _ i _ => 6 * (n + 2 - i) + 6
  | .entryClear _ i _ => 6 * (n + 2 - i) + 5
  | .slotHead _ => 5
  | .slotWrite .. => 4
  | .nextHead _ => 3
  | .nextWrite .. => 2
  | .post _ => 1

structure RefinesQueue (n : Nat) (s : Shared α) (p : Producer α) (c : Consumer) : Prop where
  bounded : s.buf.queue.length ≤ n
  used : usedCapacity s.buf.size s.buf.head s.buf.tail = s.buf.queue.length
  free : freeCapacity s.buf.size s.buf.head s.buf.tail = n - s.buf.queue.length
  sem : p = .idle → c = .idle → s.buf.sem = s.buf.queue.length
  asserts : c ≠ .failed
  producer : ∀ call s' p' e, producerNext s p call = some (s', p', e) → ProducerSpec n s s' e
  consumer : ∀ call s' c' e, consumerNext s c call = some (s', c', e) → ConsumerSpec s s' c e
  /-- A push fails exactly when the queue is full at its check; every call of the
  producer goes on to its end whatever the consumer does. -/
  push_check : ∀ data head, p = .pushTail data head →
    ((∃ s' p', producerNext s p none = some (s', p', .full data)) ↔ s.buf.queue.length = n)
  progress : p ≠ .idle → ∃ s' p' e, producerNext s p none = some (s', p', e) ∧
    p'.rank n < p.rank n

theorem View.queue_eq {s : Shared α} (h : View n s) (hn : n < 2 ^ 30) :
    s.buf.queue = s.published.drop s.popped := by
  obtain ⟨_, _, hc⟩ := h.cells
  exact hc.queue_eq hn

theorem View.queue_length {s : Shared α} (h : View n s) (hn : n < 2 ^ 30) :
    s.buf.queue.length = s.published.length - s.popped := by
  rw [h.queue_eq hn, List.length_drop]

theorem View.published_le {s : Shared α} (h : View n s) : s.published.length ≤ s.popped + n := by
  obtain ⟨_, _, hc⟩ := h.cells
  exact hc.published_le

/-! ### Producer -/

theorem producerNext_record {s s' : Shared α} {p p' : Producer α}
    {call : Option (ProducerCall α)} {e : Event α}
    (hnext : producerNext s p call = some (s', p', e)) : ∃ b, s' = s.record b e := by
  cases call with
  | none =>
      obtain ⟨⟨b, p₁, e₁⟩, _, heq⟩ := Option.map_eq_some_iff.mp hnext
      cases heq
      exact ⟨b, rfl⟩
  | some call =>
      simp only [producerNext] at hnext
      split at hnext
      · obtain ⟨⟨b, p₁⟩, _, heq⟩ := Option.map_eq_some_iff.mp hnext
        cases heq
        exact ⟨b, rfl⟩
      · cases hnext

/-- A step with an event is a step of the call under way. -/
theorem producerNext_step {s s' : Shared α} {p p' : Producer α} {call : Option (ProducerCall α)}
    {e : Event α} (he : e ≠ .internal) (hnext : producerNext s p call = some (s', p', e)) :
    ∃ b, p.step s.buf = some (b, p', e) ∧ s' = s.record b e := by
  cases call with
  | none =>
      obtain ⟨⟨b, p₁, e₁⟩, hstep, heq⟩ := Option.map_eq_some_iff.mp hnext
      cases heq
      exact ⟨b, hstep, rfl⟩
  | some call =>
      simp only [producerNext] at hnext
      split at hnext
      · obtain ⟨⟨b, p₁⟩, _, heq⟩ := Option.map_eq_some_iff.mp hnext
        cases heq
        exact absurd rfl he
      · cases hnext

theorem Producer.step_full {p p' : Producer α} {b b' : Buf α} {data : α}
    (h : p.step b = some (b', p', .full data)) :
    ∃ head, p = .pushTail data head ∧ freeCapacity b.size head b.tail = 0 := by
  cases p with
  | pushTail d head =>
      simp only [Producer.step] at h
      split at h
      · next hzero =>
        cases h
        exact ⟨head, rfl, hzero⟩
      · cases h
  | expiredEntry push tail => simp only [Producer.step] at h; split at h <;> cases h
  | loopTail push i head => simp only [Producer.step] at h; split at h <;> cases h
  | entryTest push i idx => simp only [Producer.step] at h; split at h <;> cases h
  | _ => cases h

theorem Producer.step_capacity {p p' : Producer α} {b b' : Buf α} {v : Int}
    (h : p.step b = some (b', p', .capacity v)) :
    ∃ head, p = .capTail head ∧ v = freeCapacity b.size head b.tail := by
  cases p with
  | capTail head =>
      cases h
      exact ⟨head, rfl, rfl⟩
  | pushTail d head => simp only [Producer.step] at h; split at h <;> cases h
  | expiredEntry push tail => simp only [Producer.step] at h; split at h <;> cases h
  | loopTail push i head => simp only [Producer.step] at h; split at h <;> cases h
  | entryTest push i idx => simp only [Producer.step] at h; split at h <;> cases h
  | _ => cases h

/-- The producer neither removes nor returns from a peak, and is idle once a push
has returned. -/
theorem Producer.step_event {p p' : Producer α} {b b' : Buf α} {e : Event α}
    (h : p.step b = some (b', p', e)) :
    e ≠ .remove ∧ (∀ op data, e ≠ .peaked op data) ∧ (∀ data, e = .pushed data → p' = .idle) := by
  cases p with
  | pushTail d head => simp only [Producer.step] at h; split at h <;> cases h <;> simp
  | expiredEntry push tail => simp only [Producer.step] at h; split at h <;> cases h <;> simp
  | loopTail push i head => simp only [Producer.step] at h; split at h <;> cases h <;> simp
  | entryTest push i idx => simp only [Producer.step] at h; split at h <;> cases h <;> simp
  | idle => cases h
  | _ => cases h; simp

theorem producer_spec {s s' : Shared α} {p p' : Producer α} {call : Option (ProducerCall α)}
    {e : Event α} (hn : n < 2 ^ 30) (h : ProducerInv n s p)
    (hnext : producerNext s p call = some (s', p', e)) : ProducerSpec n s s' e := by
  have h' := (producer_preserves hn h hnext).1
  have hq := h.view.queue_eq hn
  have hq' := h'.view.queue_eq hn
  have hlen := h.view.queue_length hn
  have hle := h.view.published_le
  have hpopped := h.view.popped_le
  obtain ⟨b, rfl⟩ := producerNext_record hnext
  obtain ⟨cleared, hat⟩ := id h
  cases e with
  | internal => exact hq'.trans hq.symm
  | full data =>
      obtain ⟨_, hstep, _⟩ := producerNext_step (by simp) hnext
      obtain ⟨head, rfl, hzero⟩ := Producer.step_full hstep
      obtain ⟨rfl, _⟩ := hat.knows
      rw [hat.cells.free_eq hn] at hzero
      refine ⟨by omega, hq'.trans hq.symm, ?_⟩
      intro v hv
      have := hat.seen v hv
      omega
  | append data =>
      have hle' := h'.view.published_le
      simp only [Shared.record_published, Shared.record_popped, Shared.note, List.length_append,
        List.length_singleton] at hle'
      refine ⟨by omega, ?_⟩
      rw [hq', hq]
      exact List.drop_append_of_le_length hpopped
  | pushed data =>
      refine ⟨hq'.trans hq.symm, ?_⟩
      obtain ⟨_, hstep, _⟩ := producerNext_step (by simp) hnext
      obtain rfl := (Producer.step_event hstep).2.2 data rfl
      obtain ⟨_, hat'⟩ := h'
      simpa [Producer.pending] using hat'.pushed_eq
  | capacity v =>
      obtain ⟨_, hstep, _⟩ := producerNext_step (by simp) hnext
      obtain ⟨head, rfl, rfl⟩ := Producer.step_capacity hstep
      obtain rfl : head = s.buf.head := hat.knows
      exact ⟨by rw [hat.cells.free_eq hn, hlen], hq'.trans hq.symm⟩
  | remove =>
      obtain ⟨_, hstep, _⟩ := producerNext_step (by simp) hnext
      exact (Producer.step_event hstep).1 rfl
  | peaked op data =>
      obtain ⟨_, hstep, _⟩ := producerNext_step (by simp) hnext
      exact (Producer.step_event hstep).2.1 op data rfl

theorem producer_progress {s : Shared α} {p : Producer α} (h : ProducerInv n s p)
    (hp : p ≠ .idle) :
    ∃ s' p' e, producerNext s p none = some (s', p', e) ∧ p'.rank n < p.rank n := by
  suffices hstep : ∃ b p' e, p.step s.buf = some (b, p', e) ∧ p'.rank n < p.rank n by
    obtain ⟨b, p', e, hstep, hrank⟩ := hstep
    exact ⟨s.record b e, p', e, by simp [producerNext, hstep], hrank⟩
  obtain ⟨cleared, h⟩ := h
  have hfinish (push : Option α) : (afterExpired push).rank n ≤ 5 := by
    cases push <;> simp [afterExpired, Producer.rank]
  -- the loop index stays below the size of the ring
  have hbound (i : Nat) (hle : s.published.length + i ≤ cleared + (n + 1)) : i ≤ n + 1 := by
    have := h.cells.cleared_le
    have := h.cells.freed_length_le
    omega
  have hknows := h.knows
  cases p with
  | idle => exact absurd rfl hp
  | pushTail d head =>
      simp only [Producer.step]
      split
      · exact ⟨_, _, _, rfl, by simp [Producer.rank]⟩
      · exact ⟨_, _, _, rfl, by simp [Producer.rank]⟩
  | expiredEntry push tail =>
      simp only [Producer.step]
      split
      · exact ⟨_, _, _, rfl, by simp [Producer.rank]⟩
      · exact ⟨_, _, _, rfl, lt_of_le_of_lt (hfinish push) (by simp only [Producer.rank]; omega)⟩
  | loopTail push i head =>
      simp only [Producer.step]
      split
      · exact ⟨_, _, _, rfl, by simp [Producer.rank]⟩
      · exact ⟨_, _, _, rfl, lt_of_le_of_lt (hfinish push) (by simp only [Producer.rank]; omega)⟩
  | entryTest push i idx =>
      have := hbound i hknows.2.2.2.1
      simp only [Producer.step]
      split
      · exact ⟨_, _, _, rfl, by simp [Producer.rank]⟩
      · exact ⟨_, _, _, rfl, by simp only [Producer.rank]; omega⟩
  | entryClear push i idx =>
      have := hbound i hknows.2.2.2.le
      exact ⟨_, _, _, rfl, by simp only [Producer.rank]; omega⟩
  | _ => exact ⟨_, _, _, rfl, by simp [Producer.rank]⟩

theorem push_check {s : Shared α} {p : Producer α} {data : α} {head : Nat} (hn : n < 2 ^ 30)
    (h : ProducerInv n s p) (hp : p = .pushTail data head) :
    (∃ s' p', producerNext s p none = some (s', p', .full data)) ↔ s.buf.queue.length = n := by
  subst hp
  constructor
  · rintro ⟨s', p', hnext⟩
    exact (producer_spec hn h hnext).1
  · intro hfull
    have hlen := h.view.queue_length hn
    have hle := h.view.published_le
    obtain ⟨cleared, hat⟩ := h
    obtain ⟨rfl, _⟩ := hat.knows
    have hzero : freeCapacity s.buf.size s.buf.head s.buf.tail = 0 := by
      rw [hat.cells.free_eq hn]
      omega
    exact ⟨s.record s.buf (.full data), .idle, by simp [producerNext, Producer.step, hzero]⟩

/-! ### Consumer -/

theorem consumerNext_step {s s' : Shared α} {c c' : Consumer} {call : Option ConsumerCall}
    {e : Event α} (he : e ≠ .internal) (hnext : consumerNext s c call = some (s', c', e)) :
    ∃ b, c.step s.buf = some (b, c', e) ∧ s' = s.record b e := by
  cases call with
  | none =>
      obtain ⟨⟨b, c₁, e₁⟩, hstep, heq⟩ := Option.map_eq_some_iff.mp hnext
      cases heq
      exact ⟨b, hstep, rfl⟩
  | some call =>
      simp only [consumerNext] at hnext
      split at hnext
      · obtain ⟨c₁, _, heq⟩ := Option.map_eq_some_iff.mp hnext
        cases heq
        exact absurd rfl he
      · cases hnext

theorem consumerNext_internal {s s' : Shared α} {c c' : Consumer} {call : Option ConsumerCall}
    (hnext : consumerNext s c call = some (s', c', .internal)) :
    s'.published = s.published ∧ s'.popped = s.popped := by
  cases call with
  | none =>
      obtain ⟨⟨b, c₁, e₁⟩, hstep, heq⟩ := Option.map_eq_some_iff.mp hnext
      cases heq
      exact ⟨rfl, rfl⟩
  | some call =>
      simp only [consumerNext] at hnext
      split at hnext
      · obtain ⟨c₁, _, heq⟩ := Option.map_eq_some_iff.mp hnext
        cases heq
        exact ⟨rfl, rfl⟩
      · cases hnext

/-- The events a consumer step can have, each with where it comes from. -/
theorem Consumer.step_event {c c' : Consumer} {b b' : Buf α} {e : Event α}
    (h : c.step b = some (b', c', e)) : e = .internal ∨
      (e = .remove ∧ ∃ inside tail, c = .popWrite inside tail) ∨
      (∃ op head, e = .peaked op none ∧ c = .peakTail op head ∧ op.wait = false ∧
        usedCapacity b.size head b.tail = 0) ∨
      (∃ op tail x, e = .peaked op (some x) ∧ c = .peakEntry op tail ∧
        b.entries (index b.size tail 1) = some x) := by
  cases c with
  | idle => cases h
  | failed => cases h
  | waitSem op =>
      simp only [Consumer.step, Option.ite_none_right_eq_some] at h
      cases h.2
      exact .inl rfl
  | popSem inside =>
      simp only [Consumer.step, Option.ite_none_right_eq_some] at h
      cases h.2
      exact .inl rfl
  | oldTail op head => simp only [Consumer.step] at h; split at h <;> cases h <;> exact .inl rfl
  | popTail inside head =>
      simp only [Consumer.step] at h; split at h <;> cases h <;> exact .inl rfl
  | popWrite inside tail =>
      cases h
      exact .inr (.inl ⟨rfl, inside, tail, rfl⟩)
  | peakTail op head =>
      simp only [Consumer.step] at h
      split at h
      · next hzero =>
        split at h
        · cases h
          exact .inl rfl
        · next hw =>
          cases h
          exact .inr (.inr (.inl ⟨op, head, rfl, rfl, by simpa using hw, hzero⟩))
      · cases h
        exact .inl rfl
  | peakEntry op tail =>
      simp only [Consumer.step] at h
      split at h
      · next x hx =>
        cases h
        exact .inr (.inr (.inr ⟨op, tail, x, rfl, rfl, hx⟩))
      · cases h
        exact .inl rfl
  | _ => cases h; exact .inl rfl

theorem consumer_spec {s s' : Shared α} {c c' : Consumer} {call : Option ConsumerCall}
    {e : Event α} (hn : n < 2 ^ 30) (h : ConsumerInv n s c) (hv : View n s)
    (hnext : consumerNext s c call = some (s', c', e)) : ConsumerSpec s s' c e := by
  have hv' := hv.stable (consumer_preserves hn h hv hnext).2
  have hq := hv.queue_eq hn
  have hq' := hv'.queue_eq hn
  by_cases he : e = .internal
  · subst he
    obtain ⟨hpublished, hpopped⟩ := consumerNext_internal hnext
    change s'.buf.queue = s.buf.queue
    rw [hq', hq, hpublished, hpopped]
  obtain ⟨b, hstep, rfl⟩ := consumerNext_step he hnext
  obtain hi | ⟨rfl, inside, tail, rfl⟩ | ⟨op, head, rfl, rfl, hw, hzero⟩ |
    ⟨op, tail, x, rfl, rfl, hx⟩ := Consumer.step_event hstep
  · exact absurd hi he
  · -- a removal
    have hle := hv'.popped_le
    simp only [Shared.record_published, Shared.record_popped, Shared.note] at hle hq'
    refine ⟨⟨_, by rw [hq, hq']; exact List.drop_eq_getElem_cons (by omega)⟩, ?_⟩
    intro op tail' hc hempty
    cases hc
    have hlt := (h.knows.2 op rfl).2
    rw [hq', List.drop_eq_nil_iff] at hempty
    omega
  · -- `NULL`: the queue was empty when `head` was read
    refine ⟨hq'.trans hq.symm, hw, ?_⟩
    obtain ⟨-, count, hread, -⟩ := h.knows
    rw [hv.used_read hn hread] at hzero
    obtain ⟨-, hle, -, -, hmem⟩ := hread
    rw [show count - s.popped = 0 by omega, List.take_zero] at hmem
    exact hmem
  · -- an entry: it is the oldest one now
    obtain ⟨rfl, hsingle, hlt⟩ := h.knows
    rw [hv.next_entry hn hlt] at hx
    obtain rfl := Option.some.inj hx
    refine ⟨hq'.trans hq.symm, ?_, ?_⟩
    · rw [hq, List.drop_eq_getElem_cons hlt]
      rfl
    · intro hlatest
      rcases hsingle hlatest with ⟨hlen, -⟩ | ⟨x, hx, hmem⟩
      · omega
      · rw [List.getElem?_eq_getElem hlt] at hx
        obtain rfl := Option.some.inj hx
        exact hmem

/-! ### The refinement -/

theorem refines_bounded_queue {s : Shared α} {p : Producer α} {c : Consumer} (hn : n < 2 ^ 30)
    (hs : Reachable n s p c) : RefinesQueue n s p c := by
  obtain ⟨hp, hc⟩ := reachable_inv hn hs
  have hv := hp.view
  have hlen := hv.queue_length hn
  have hle := hv.published_le
  obtain ⟨_, _, hcells⟩ := hv.cells
  refine
    { bounded := by omega
      used := by rw [hcells.used_eq hn, hlen]
      free := by rw [hcells.free_eq hn, hlen]
      sem := ?_
      asserts := ?_
      producer := fun _ _ _ _ hnext => producer_spec hn hp hnext
      consumer := fun _ _ _ _ hnext => consumer_spec hn hc hv hnext
      push_check := fun _ _ hpc => push_check hn hp hpc
      progress := producer_progress hp }
  · rintro rfl rfl
    obtain ⟨_, hat⟩ := hp
    have hpushed : s.pushed = s.published := by simpa [Producer.pending] using hat.pushed_eq
    have hsem : s.buf.sem + s.popped = s.pushed.length := hc.sem_eq
    rw [hpushed] at hsem
    omega
  · rintro rfl
    exact hc.knows

/-- Two pushes into two places, then a call of `rbuf_wait_peak_latest`. -/
def latestRun : List (Action Nat) :=
  [Action.producer (some .setFree), .producer (some (.push 5))] ++
    List.replicate 9 (Action.producer none) ++ [Action.producer (some (.push 6))] ++
    List.replicate 9 (Action.producer none) ++ [Action.consumer (some (.peak ⟨true, true⟩))] ++
    List.replicate 14 (Action.consumer none)

theorem refines_bounded_queue_latestRun :
    ∃ x, run (Shared.start 2, .idle, .idle) latestRun = some x ∧
      x.1.published = [5, 6] ∧ x.1.buf.queue = [6] ∧
      x.2.2 = .peakEntry ⟨true, true⟩ 0 ∧ RefinesQueue 2 x.1 x.2.1 x.2.2 := by
  have hend : (run (Shared.start 2, .idle, .idle) latestRun).map
      (fun x => (x.1.published, x.1.buf.queue, x.2.2)) =
        some ([5, 6], [6], .peakEntry ⟨true, true⟩ 0) := by decide +kernel
  obtain ⟨x, hx, heq⟩ := Option.map_eq_some_iff.mp hend
  simp only [Prod.mk.injEq] at heq
  obtain ⟨hpublished, hqueue, hpc⟩ := heq
  exact ⟨x, hx, hpublished, hqueue, hpc,
    refines_bounded_queue (by decide) (run_reachable (.start ⟨rfl, rfl, rfl⟩) hx)⟩

end Stratus.Common.Rbuf
