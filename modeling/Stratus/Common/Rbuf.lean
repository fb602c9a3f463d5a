import Mathlib.Logic.Function.Basic
import Stratus.Lib.Transition
import Stratus.Lib.Word

/-! The pointer queue of `rbuf2.c`, one atomic access of `head`, `tail`,
`entries[]` or the semaphore at a time.  A program counter names the access a
thread makes next and keeps the values it has already read. -/
namespace Stratus.Common.Rbuf

open Stratus.Lib

/-- `rbuf_used_capacity` on the two indices it has read. -/
def usedCapacity (size head tail : Nat) : Int :=
  (cInt (cInt (cInt (head - tail) - 1) + size)).tmod size

/-- `rbuf_free_capacity` on the two indices it has read. -/
def freeCapacity (size head tail : Nat) : Int :=
  cInt (cInt (size - usedCapacity size head tail) - 1)

/-- `(base + i) % buf->size`. -/
def index (size base i : Nat) : Nat :=
  ((cInt (base + i)).tmod size).toNat

/-- The memory of a `struct rbuf`.  `free` tells whether a callback is
registered and `freed` lists what it has been called with. -/
structure Buf (α : Type) where
  size : Nat
  head : Nat
  tail : Nat
  entries : Nat → Option α
  sem : Nat
  free : Bool
  freed : List α

variable {α : Type}

namespace Buf

/-- `rbuf_init`, with both allocations succeeding. -/
def init (α : Type) (capacity : Nat) : Buf α where
  size := capacity + 1
  head := 0
  tail := capacity + 1 - 1
  entries := fun _ => none
  sem := 0
  free := false
  freed := []

/-- `rbuf_destroy`: every slot that is not `NULL` is passed to the callback. -/
def destroy (b : Buf α) : Buf α :=
  { b with
    freed := b.freed ++
      if b.free then (List.range b.size).filterMap b.entries else [] }

def store (b : Buf α) (i : Nat) (entry : Option α) : Buf α :=
  { b with entries := Function.update b.entries i entry }

/-- The entries from after `tail` up to `head`, oldest first. -/
def queue (b : Buf α) : List α :=
  (List.range (usedCapacity b.size b.head b.tail).toNat).filterMap fun i =>
    b.entries ((b.tail + 1 + i) % b.size)

end Buf

/-- The four peak functions: blocking or not, latest or next entry. -/
structure Peak where
  wait : Bool
  latest : Bool
deriving DecidableEq

/-- What a step did that the calling thread, or an observer of the queue, can
tell. -/
inductive Event (α : Type) where
  | internal
  /-- `rbuf_push` returned -1. -/
  | full (data : α)
  /-- `rbuf_push` advanced `head`. -/
  | append (data : α)
  /-- `rbuf_push` returned 0. -/
  | pushed (data : α)
  /-- The producer's own `rbuf_free_capacity` returned. -/
  | capacity (value : Int)
  /-- `rbuf_pop` advanced `tail`. -/
  | remove
  /-- A peak function returned, with `none` for `NULL`. -/
  | peaked (op : Peak) (data : Option α)
deriving DecidableEq

/-! `rbuf_free_expired` runs on its own or inside `rbuf_push`; in the second
case the entry being pushed is kept beside the loop's own variables. -/

inductive Producer (α : Type) where
  | idle
  | capHead
  | capTail (head : Nat)
  | pushHead (data : α)
  | pushTail (data : α) (head : Nat)
  | expiredTail (push : Option α)
  | expiredEntry (push : Option α) (tail : Nat)
  | loopHead (push : Option α) (i : Nat)
  | loopTail (push : Option α) (i head : Nat)
  | idxHead (push : Option α) (i : Nat)
  | entryTest (push : Option α) (i idx : Nat)
  | entryFree (push : Option α) (i idx : Nat)
  | entryClear (push : Option α) (i idx : Nat)
  | slotHead (data : α)
  | slotWrite (data : α) (head : Nat)
  | nextHead (data : α)
  | nextWrite (data : α) (head : Nat)
  | post (data : α)
deriving DecidableEq

inductive ProducerCall (α : Type) where
  | setFree
  | push (data : α)
  | freeExpired
  | freeCapacity

/-- `rbuf_pop` runs on its own or inside `_rbuf_pop_old` of a peak function. -/
inductive Consumer where
  | idle
  | waitSem (op : Peak)
  | waitPost (op : Peak)
  | oldHead (op : Peak)
  | oldTail (op : Peak) (head : Nat)
  | popSem (inside : Option Peak)
  | popHead (inside : Option Peak)
  | popTail (inside : Option Peak) (head : Nat)
  | popNext (inside : Option Peak)
  | popWrite (inside : Option Peak) (tail : Nat)
  | peakHead (op : Peak)
  | peakTail (op : Peak) (head : Nat)
  | peakNext (op : Peak)
  | peakEntry (op : Peak) (tail : Nat)
  | failed
deriving DecidableEq

inductive ConsumerCall where
  | peak (op : Peak)
  | pop

/-- Where the producer goes when `rbuf_free_expired` returns. -/
def afterExpired : Option α → Producer α
  | none => .idle
  | some data => .slotHead data

def Producer.step (b : Buf α) : Producer α → Option (Buf α × Producer α × Event α)
  | .idle => none
  | .capHead => some (b, .capTail b.head, .internal)
  | .capTail head => some (b, .idle, .capacity (freeCapacity b.size head b.tail))
  | .pushHead data => some (b, .pushTail data b.head, .internal)
  | .pushTail data head =>
      if freeCapacity b.size head b.tail = 0 then some (b, .idle, .full data)
      else some (b, .expiredTail (some data), .internal)
  | .expiredTail push => some (b, .expiredEntry push b.tail, .internal)
  | .expiredEntry push tail =>
      match b.entries tail with
      | some _ => some (b, .loopHead push 1, .internal)
      | none => some (b, afterExpired push, .internal)
  | .loopHead push i => some (b, .loopTail push i b.head, .internal)
  | .loopTail push i head =>
      if (i : Int) < cInt (b.size - usedCapacity b.size head b.tail) then
        some (b, .idxHead push i, .internal)
      else some (b, afterExpired push, .internal)
  | .idxHead push i => some (b, .entryTest push i (index b.size b.head i), .internal)
  | .entryTest push i idx =>
      match b.entries idx with
      | some _ => some (b, .entryFree push i idx, .internal)
      | none => some (b, .loopHead push (i + 1), .internal)
  | .entryFree push i idx =>
      some ({ b with freed := b.freed ++ (b.entries idx).toList }, .entryClear push i idx,
        .internal)
  | .entryClear push i idx => some (b.store idx none, .loopHead push (i + 1), .internal)
  | .slotHead data => some (b, .slotWrite data b.head, .internal)
  | .slotWrite data head => some (b.store head (some data), .nextHead data, .internal)
  | .nextHead data => some (b, .nextWrite data b.head, .internal)
  | .nextWrite data head =>
      some ({ b with head := index b.size head 1 }, .post data, .append data)
  | .post data => some ({ b with sem := b.sem + 1 }, .idle, .pushed data)

/-- What the producer may call, by the contract of `rbuf2.h`: a callback is
registered before the first push. -/
def Producer.call (b : Buf α) : ProducerCall α → Option (Buf α × Producer α)
  | .setFree => some ({ b with free := true }, .idle)
  | .push data => if b.free then some (b, .pushHead data) else none
  | .freeExpired => if b.free then some (b, .expiredTail none) else none
  | .freeCapacity => some (b, .capHead)

/-- Where the consumer goes when `rbuf_pop` returns. -/
def afterPop : Option Peak → Consumer
  | none => .idle
  | some op => .oldHead op

/-- `_rbuf_pop_old` is part of the latest variants only. -/
def afterWait (op : Peak) : Consumer :=
  if op.latest then .oldHead op else .peakHead op

def Consumer.step (b : Buf α) : Consumer → Option (Buf α × Consumer × Event α)
  | .idle => none
  | .waitSem op =>
      if 0 < b.sem then some ({ b with sem := b.sem - 1 }, .waitPost op, .internal) else none
  | .waitPost op => some ({ b with sem := b.sem + 1 }, afterWait op, .internal)
  | .oldHead op => some (b, .oldTail op b.head, .internal)
  | .oldTail op head =>
      if 1 < usedCapacity b.size head b.tail then some (b, .popSem (some op), .internal)
      else some (b, .peakHead op, .internal)
  | .popSem inside =>
      if 0 < b.sem then some ({ b with sem := b.sem - 1 }, .popHead inside, .internal) else none
  | .popHead inside => some (b, .popTail inside b.head, .internal)
  | .popTail inside head =>
      if 0 < usedCapacity b.size head b.tail then some (b, .popNext inside, .internal)
      else some (b, .failed, .internal)
  | .popNext inside => some (b, .popWrite inside b.tail, .internal)
  | .popWrite inside tail =>
      some ({ b with tail := index b.size tail 1 }, afterPop inside, .remove)
  | .peakHead op => some (b, .peakTail op b.head, .internal)
  | .peakTail op head =>
      if usedCapacity b.size head b.tail = 0 then
        -- the blocking variants assert that `_rbuf_peak` found an entry
        if op.wait then some (b, .failed, .internal) else some (b, .idle, .peaked op none)
      else some (b, .peakNext op, .internal)
  | .peakNext op => some (b, .peakEntry op b.tail, .internal)
  | .peakEntry op tail =>
      match b.entries (index b.size tail 1) with
      | some data => some (b, .idle, .peaked op (some data))
      | none => some (b, .failed, .internal)
  | .failed => none

/-- What the consumer may call: it pops a non-empty buffer only. -/
def Consumer.call (b : Buf α) : ConsumerCall → Option Consumer
  | .peak op => some (if op.wait then .waitSem op else afterWait op)
  | .pop => if 0 < usedCapacity b.size b.head b.tail then some (.popSem none) else none

/-! ## The two threads

Beside the memory, the history of the run is kept: what has been appended, how
many entries have been removed, the entries whose push returned 0, what the
producer last learnt from `rbuf_free_capacity` (until it appends again), and at
each moment since the consumer's current call the number of entries removed and
what the buffer held. -/

structure Shared (α : Type) where
  buf : Buf α
  published : List α
  popped : Nat
  pushed : List α
  seen : Option Int
  window : List (Nat × List α)

namespace Shared

def start (n : Nat) : Shared α where
  buf := Buf.init α n
  published := []
  popped := 0
  pushed := []
  seen := none
  window := []

def snapshot (s : Shared α) : Nat × List α := (s.popped, s.buf.queue)

def note (s : Shared α) : Event α → Shared α
  | .internal => s
  | .full _ => { s with seen := none }
  | .append data => { s with published := s.published ++ [data], seen := none }
  | .pushed data => { s with pushed := s.pushed ++ [data] }
  | .capacity value => { s with seen := some value }
  | .remove => { s with popped := s.popped + 1 }
  | .peaked .. => s

/-- The history after a step that leaves the memory `b` and shows `event`. -/
def record (s : Shared α) (b : Buf α) (event : Event α) : Shared α :=
  let s' := { s.note event with buf := b }
  { s' with window := s'.snapshot :: s'.window }

end Shared

def producerNext (s : Shared α) (p : Producer α) :
    Option (ProducerCall α) → Option (Shared α × Producer α × Event α)
  | some call =>
      match p with
      | .idle => (Producer.call s.buf call).map fun r => (s.record r.1 .internal, r.2, .internal)
      | _ => none
  | none => (p.step s.buf).map fun r => (s.record r.1 r.2.2, r.2)

def consumerNext (s : Shared α) (c : Consumer) :
    Option ConsumerCall → Option (Shared α × Consumer × Event α)
  | some call =>
      match c with
      | .idle => (Consumer.call s.buf call).map fun c' =>
          ({ s with window := [s.snapshot] }, c', .internal)
      | _ => none
  | none => (c.step s.buf).map fun r => (s.record r.1 r.2.2, r.2)

/-- One producer and one consumer on a fresh buffer of capacity `n`. -/
def threads (α : Type) (n : Nat) : Threads (Shared α) (Producer α) Consumer where
  init s p c := s = Shared.start n ∧ p = .idle ∧ c = .idle
  left s p s' p' := ∃ call event, producerNext s p call = some (s', p', event)
  right s c s' c' := ∃ call event, consumerNext s c call = some (s', c', event)

abbrev Reachable (n : Nat) (s : Shared α) (p : Producer α) (c : Consumer) : Prop :=
  (threads α n).system.Reachable (s, p, c)

/-! A schedule names the thread that moves and, for an idle one, its call. -/

inductive Action (α : Type) where
  | producer (call : Option (ProducerCall α))
  | consumer (call : Option ConsumerCall)

def run (x : Shared α × Producer α × Consumer) :
    List (Action α) → Option (Shared α × Producer α × Consumer)
  | [] => some x
  | .producer call :: rest => do
      let (s, p, _) ← producerNext x.1 x.2.1 call
      run (s, p, x.2.2) rest
  | .consumer call :: rest => do
      let (s, c, _) ← consumerNext x.1 x.2.2 call
      run (s, x.2.1, c) rest

theorem run_reachable {n : Nat} {x y : Shared α × Producer α × Consumer}
    {actions : List (Action α)} (hx : (threads α n).system.Reachable x)
    (h : run x actions = some y) : (threads α n).system.Reachable y := by
  induction actions generalizing x with
  | nil =>
      cases h
      exact hx
  | cons action rest ih =>
      obtain ⟨s, p, c⟩ := x
      cases action with
      | producer call =>
          obtain ⟨⟨s', p', e⟩, hnext, h⟩ := Option.bind_eq_some_iff.mp h
          exact ih (.next hx (.left c ⟨call, e, hnext⟩)) h
      | consumer call =>
          obtain ⟨⟨s', c', e⟩, hnext, h⟩ := Option.bind_eq_some_iff.mp h
          exact ih (.next hx (.right p ⟨call, e, hnext⟩)) h

end Stratus.Common.Rbuf
