import Stratus.Common.RbufQueue

/-! What the two modules at the ends of a queue rely on: how a step of their thread
changes the queue and the entry that is being pushed. -/
namespace Stratus.Common.Rbuf

open Stratus.Lib

variable {α : Type} {n : Nat}

/-- The entry of a push that has neither been appended nor refused. -/
def Producer.data : Producer α → Option α
  | .pushHead data | .pushTail data _ | .slotHead data | .slotWrite data _ | .nextHead data
  | .nextWrite data _ => some data
  | .expiredTail push | .expiredEntry push _ | .loopHead push _ | .loopTail push .. | .idxHead push _
  | .entryTest push .. | .entryFree push .. | .entryClear push .. => push
  | .idle | .capHead | .capTail _ | .post _ => none

theorem data_afterExpired (push : Option α) : (afterExpired push).data = push := by
  cases push <;> rfl

theorem Producer.step_data {p p' : Producer α} {b b' : Buf α} {e : Event α}
    (h : p.step b = some (b', p', e)) :
    (p'.data = p.data ∧ (∀ data, e ≠ .append data ∧ e ≠ .full data)) ∨
    (∃ data, e = .append data ∧ p.data = some data ∧ p'.data = none) ∨
    (∃ data, e = .full data ∧ p.data = some data ∧ p'.data = none) := by
  cases p with
  | idle => cases h
  | pushTail data head =>
      simp only [Producer.step] at h
      split at h
      · cases h
        exact .inr (.inr ⟨data, rfl, rfl, rfl⟩)
      · cases h
        exact .inl ⟨rfl, by simp⟩
  | expiredEntry push tail =>
      simp only [Producer.step] at h
      split at h
      · cases h
        exact .inl ⟨rfl, by simp⟩
      · cases h
        exact .inl ⟨data_afterExpired push, by simp⟩
  | loopTail push i head =>
      simp only [Producer.step] at h
      split at h
      · cases h
        exact .inl ⟨rfl, by simp⟩
      · cases h
        exact .inl ⟨data_afterExpired push, by simp⟩
  | entryTest push i idx =>
      simp only [Producer.step] at h
      split at h <;> cases h <;> exact .inl ⟨rfl, by simp⟩
  | nextWrite data head =>
      cases h
      exact .inr (.inl ⟨data, rfl, rfl, rfl⟩)
  | _ =>
      cases h
      exact .inl ⟨rfl, by simp⟩

/-- A step of `rbuf_push`: nothing to be seen, or the entry has been appended, or it
has been refused by a full queue. -/
theorem producer_step {s s' : Shared α} {p p' : Producer α} {c : Consumer} {e : Event α}
    (hn : n < 2 ^ 30) (hs : Reachable n s p c) (hnext : producerNext s p none = some (s', p', e)) :
    (s'.buf.queue = s.buf.queue ∧ p'.data = p.data) ∨
    (∃ data, p.data = some data ∧ p'.data = none ∧ s'.buf.queue = s.buf.queue ++ [data]) ∨
    (∃ data head, p = .pushTail data head ∧ freeCapacity s.buf.size head s.buf.tail = 0 ∧
      p'.data = none ∧ s'.buf.queue = s.buf.queue) := by
  have hspec := producer_spec hn (reachable_inv hn hs).1 hnext
  obtain ⟨⟨b, p₁, e₁⟩, hstep, heq⟩ := Option.map_eq_some_iff.mp hnext
  cases heq
  obtain ⟨hdata, hother⟩ | ⟨data, rfl, hp, hp'⟩ | ⟨data, rfl, hp, hp'⟩ := Producer.step_data hstep
  · refine .inl ⟨?_, hdata⟩
    cases e with
    | internal => exact hspec
    | full data => exact absurd rfl (hother data).2
    | append data => exact absurd rfl (hother data).1
    | pushed data => exact hspec.1
    | capacity value => exact hspec.2
    | remove => exact hspec.elim
    | peaked op data => exact hspec.elim
  · exact .inr (.inl ⟨data, hp, hp', hspec.2⟩)
  · obtain ⟨head, rfl, hzero⟩ := Producer.step_full hstep
    exact .inr (.inr ⟨data, head, rfl, hzero, hp', hspec.2.1⟩)

theorem push_call {s s' : Shared α} {p p' : Producer α} {c : Consumer} {e : Event α} {data : α}
    (hn : n < 2 ^ 30) (hs : Reachable n s p c)
    (hnext : producerNext s p (some (.push data)) = some (s', p', e)) :
    p = .idle ∧ s'.buf.queue = s.buf.queue ∧ p'.data = some data := by
  have hspec := producer_spec hn (reachable_inv hn hs).1 hnext
  simp only [producerNext] at hnext
  split at hnext
  · obtain ⟨⟨b, p₁⟩, hcall, heq⟩ := Option.map_eq_some_iff.mp hnext
    cases heq
    simp only [Producer.call, Option.ite_none_right_eq_some] at hcall
    cases hcall.2
    exact ⟨rfl, hspec, rfl⟩
  · cases hnext

/-- A step of `rbuf_pop` or a peak function: nothing to be seen, or the oldest entry has
been removed, or the function has returned the oldest entry. -/
theorem consumer_step {s s' : Shared α} {p : Producer α} {c c' : Consumer} {e : Event α}
    (hn : n < 2 ^ 30) (hs : Reachable n s p c) (hnext : consumerNext s c none = some (s', c', e)) :
    (s'.buf.queue = s.buf.queue ∧ (e = .internal ∨ ∃ op, e = .peaked op none)) ∨
    (∃ inside tail x, c = .popWrite inside tail ∧ e = .remove ∧
      s.buf.queue = x :: s'.buf.queue) ∨
    (∃ op x, e = .peaked op (some x) ∧ s.buf.queue.head? = some x ∧
      s'.buf.queue = s.buf.queue) := by
  have hinv := reachable_inv hn hs
  have hspec := consumer_spec hn hinv.2 hinv.1.view hnext
  obtain ⟨⟨b, c₁, e₁⟩, hstep, heq⟩ := Option.map_eq_some_iff.mp hnext
  cases heq
  obtain rfl | ⟨rfl, inside, tail, rfl⟩ | ⟨op, head, rfl, rfl, -⟩ | ⟨op, tail, x, rfl, rfl, -⟩ :=
    Consumer.step_event hstep
  · exact .inl ⟨hspec, .inl rfl⟩
  · obtain ⟨⟨x, hx⟩, -⟩ := hspec
    exact .inr (.inl ⟨inside, tail, x, rfl, rfl, hx⟩)
  · exact .inl ⟨hspec.1, .inr ⟨op, rfl⟩⟩
  · exact .inr (.inr ⟨op, x, rfl, hspec.2.1, hspec.1⟩)

theorem consumer_call {s s' : Shared α} {p : Producer α} {c c' : Consumer} {e : Event α}
    {call : ConsumerCall} (hn : n < 2 ^ 30) (hs : Reachable n s p c)
    (hnext : consumerNext s c (some call) = some (s', c', e)) :
    s'.buf.queue = s.buf.queue := by
  have hinv := reachable_inv hn hs
  have hspec := consumer_spec hn hinv.2 hinv.1.view hnext
  simp only [consumerNext] at hnext
  split at hnext
  · obtain ⟨c₁, _, heq⟩ := Option.map_eq_some_iff.mp hnext
    cases heq
    exact hspec
  · cases hnext

theorem Reachable.producer {s s' : Shared α} {p p' : Producer α} {c : Consumer} {e : Event α}
    {call : Option (ProducerCall α)} (hs : Reachable n s p c)
    (hnext : producerNext s p call = some (s', p', e)) : Reachable n s' p' c :=
  .next hs (.left c ⟨call, e, hnext⟩)

theorem Reachable.consumer {s s' : Shared α} {p : Producer α} {c c' : Consumer} {e : Event α}
    {call : Option ConsumerCall} (hs : Reachable n s p c)
    (hnext : consumerNext s c call = some (s', c', e)) : Reachable n s' p c' :=
  .next hs (.right p ⟨call, e, hnext⟩)

end Stratus.Common.Rbuf
