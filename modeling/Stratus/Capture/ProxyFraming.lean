import Mathlib.Data.List.Infix
import Stratus.Capture.ProxyData

/-! When the proxy frames correctly.  The loop never compares the size of a message
with the bytes that are left, so a message is handed on as soon as its header has
arrived; with fewer than eight bytes of an incomplete message it stops in time. -/
namespace Stratus.Capture.Proxy

open Stratus.Lib

variable {env : Env} {msgs : List (List UInt8)} {stale : Nat → UInt8} {reads : List (List UInt8)}

theorem Conn.copy_eq_take {c : Conn} {size : Nat} (hsize : size ≤ c.unread.length) :
    c.copy size = c.unread.take size := by
  unfold Conn.unread at *
  rw [List.length_drop] at hsize
  refine List.ext_getElem (by simp [Conn.copy]; omega) ?_
  intro i hi _
  have hlt : c.tail + i < c.received.length := by
    simp only [Conn.copy, List.length_map, List.length_range] at hi
    omega
  simp [Conn.copy, List.getElem?_eq_getElem hlt]

theorem parseHeader_take (buf : List UInt8) : parseHeader (buf.take 8) = parseHeader buf := by
  simp [parseHeader, List.take_take, List.drop_take]

theorem getElem?_of_drop {frames rest : List (List UInt8)} {frame : List UInt8} {k : Nat}
    (h : frames.drop k = frame :: rest) : frames[k]? = some frame := by
  rw [← Nat.add_zero k, ← List.getElem?_drop, h]
  rfl

theorem take_of_drop {frames rest : List (List UInt8)} {frame : List UInt8} {k : Nat}
    (h : frames.drop k = frame :: rest) : frames.take (k + 1) = frames.take k ++ [frame] := by
  rw [List.take_add_one, getElem?_of_drop h]
  rfl

/-- What `wl_connection_read` returns is an `int`. -/
def ReadFits (msgs reads : List (List UInt8)) : Prop :=
  ∀ done chunk rest, reads = done ++ chunk :: rest →
    remainder msgs done.flatten.length + chunk.length < 2 ^ 31

theorem ReadFits.of_total (h : reads.flatten.length < 2 ^ 31) : ReadFits msgs reads := by
  rintro done chunk rest rfl
  have := remainder_le msgs done.flatten.length
  simp only [List.flatten_append, List.flatten_cons, List.length_append] at h
  omega

/-- The invariant: everything consumed is whole messages, and the loop's own count is
the number of unread bytes. -/
structure Inv (env : Env) (msgs reads : List (List UInt8)) (s : State) : Prop where
  handed : s.calls = (msgs.take s.calls.length).map Call.whole
  tail_eq : s.conn.tail = (msgs.take s.calls.length).flatten.length
  tail_le : s.conn.tail ≤ s.conn.received.length
  arrived : ∃ done, reads = done ++ s.pending ∧ s.conn.received = done.flatten
  ready : s.pc = .ready → ∀ msg rest, msgs.drop s.calls.length = msg :: rest →
    s.conn.unread.length < msg.length
  loop : ∀ len, s.pc = .loop len → len = s.conn.unread.length ∧ s.conn.unread.length < 2 ^ 31
  stopped : s.pc = .stopped → env.handled s.calls = false ∨ env.flushed s.calls = false

namespace Inv

variable {s : State}

theorem length_eq (h : Inv env msgs reads s) :
    s.conn.received.length = (msgs.take s.calls.length).flatten.length + s.conn.unread.length := by
  have := h.tail_le
  rw [← h.tail_eq, Conn.unread, List.length_drop]
  omega

theorem remainder_received (h : Inv env msgs reads s) :
    remainder msgs s.conn.received.length =
      remainder (msgs.drop s.calls.length) s.conn.unread.length := by
  rw [h.length_eq, remainder_drop]

theorem unread_prefix (h : Inv env msgs reads s) (hreads : reads.flatten <+: msgs.flatten) :
    s.conn.unread <+: (msgs.drop s.calls.length).flatten := by
  obtain ⟨done, hdone, hreceived⟩ := h.arrived
  have hprefix : s.conn.received <+: msgs.flatten := by
    rw [hreceived]
    refine List.IsPrefix.trans ?_ hreads
    rw [hdone, List.flatten_append]
    exact List.prefix_append _ _
  obtain ⟨later, hlater⟩ := hprefix
  rw [← drop_flatten_take, ← h.tail_eq, ← hlater, List.drop_append_of_le_length h.tail_le]
  exact List.prefix_append _ _

theorem handed_bytes (h : Inv env msgs reads s) :
    (s.calls.map Call.bytes).flatten = (msgs.take s.calls.length).flatten := by
  conv_lhs => rw [h.handed, List.map_map]
  congr 1
  exact List.map_id _

theorem framed (h : Inv env msgs reads s) (hreads : reads.flatten <+: msgs.flatten) :
    Framed env msgs s where
  handed := h.handed
  buffered := by
    rw [h.handed_bytes, ← h.tail_eq]
    exact h.tail_le
  remainder := by
    intro hpc
    have hprefix := h.unread_prefix hreads
    cases hdrop : msgs.drop s.calls.length with
    | nil =>
        rw [hdrop] at hprefix
        exact .inl (List.prefix_nil.mp hprefix)
    | cons msg rest =>
        rw [hdrop] at hprefix
        have hlt := h.ready hpc msg rest hdrop
        refine .inr ⟨msg, getElem?_of_drop hdrop, ?_, ?_⟩
        · exact List.prefix_of_prefix_length_le hprefix (List.prefix_append _ _) hlt.le
        · intro heq
          rw [heq] at hlt
          exact lt_irrefl _ hlt
  stopped := h.stopped

/-- A message of which eight bytes have arrived is complete, when fewer than eight
bytes are left over. -/
theorem next_message (h : Inv env msgs reads s) (hlen : 8 ≤ s.conn.unread.length)
    (hrest : remainder msgs s.conn.received.length < 8) :
    ∃ msg rest, msgs.drop s.calls.length = msg :: rest ∧ msg.length ≤ s.conn.unread.length := by
  rw [h.remainder_received] at hrest
  cases hdrop : msgs.drop s.calls.length with
  | nil =>
      rw [hdrop, remainder] at hrest
      omega
  | cons msg rest =>
      refine ⟨msg, rest, rfl, ?_⟩
      by_contra hlt
      rw [hdrop, remainder, if_neg hlt] at hrest
      omega

/-- The body of the loop on a message that has arrived whole. -/
theorem handleNext_eq (h : Inv env msgs reads s) (hreads : reads.flatten <+: msgs.flatten)
    {msg : List UInt8} {rest : List (List UInt8)} (hwf : WellFormed msg)
    (hdrop : msgs.drop s.calls.length = msg :: rest) (hle : msg.length ≤ s.conn.unread.length)
    (len : Int) :
    handleNext env s len =
      { s with
        conn := s.conn.consume msg.length
        calls := s.calls ++ [Call.whole msg]
        pc := if env.handled (s.calls ++ [Call.whole msg]) then .loop (cInt (len - msg.length))
          else .stopped } := by
  have hprefix := h.unread_prefix hreads
  rw [hdrop, List.flatten_cons] at hprefix
  have hmsg : s.conn.unread.take msg.length = msg := by
    have := List.prefix_of_prefix_length_le (List.prefix_append msg rest.flatten) hprefix hle
    exact (List.prefix_iff_eq_take.mp this).symm
  have hmin := hwf.min
  have hheader : parseHeader (s.conn.copy 8) = parseHeader msg := by
    rw [Conn.copy_eq_take (by omega), ← parseHeader_take msg]
    congr 1
    conv_rhs => rw [← hmsg, List.take_take, Nat.min_eq_left hmin]
  have hbytes : s.conn.copy msg.length = msg := by
    rw [Conn.copy_eq_take hle, hmsg]
  unfold handleNext
  simp only [hheader, hwf.size_eq, hbytes, hmin, true_and, Call.whole]
  congr

theorem remainder_ready (h : Inv env msgs reads s) (hpc : s.pc = .ready) :
    remainder msgs s.conn.received.length = s.conn.unread.length := by
  rw [h.remainder_received]
  cases hdrop : msgs.drop s.calls.length with
  | nil => rfl
  | cons msg rest => rw [remainder, if_neg (by have := h.ready hpc msg rest hdrop; omega)]

theorem read (h : Inv env msgs reads s) (hfits : ReadFits msgs reads) (hpc : s.pc = .ready)
    {chunk : List UInt8} {rest : List (List UInt8)} (hpending : s.pending = chunk :: rest) :
    Inv env msgs reads
      { s with conn := (s.conn.read chunk).1, pending := rest, pc := .loop (s.conn.read chunk).2 } := by
  obtain ⟨done, hdone, hreceived⟩ := h.arrived
  have hle := h.tail_le
  have hlen : (s.conn.read chunk).1.unread.length = s.conn.unread.length + chunk.length := by
    simp only [Conn.read, Conn.unread, List.length_drop, List.length_append]
    omega
  have hfit : s.conn.unread.length + chunk.length < 2 ^ 31 := by
    rw [← h.remainder_ready hpc, hreceived]
    exact hfits done chunk rest (hpending ▸ hdone)
  refine
    { handed := h.handed
      tail_eq := h.tail_eq
      tail_le := ?_
      arrived := ⟨done ++ [chunk], by simp [hdone, hpending], by simp [Conn.read, hreceived]⟩
      ready := by simp
      loop := ?_
      stopped := by simp }
  · change s.conn.tail ≤ (s.conn.received ++ chunk).length
    rw [List.length_append]
    omega
  · rintro _ ⟨⟩
    change (s.conn.read chunk).2 = _ ∧ (s.conn.read chunk).1.unread.length < _
    rw [hlen]
    refine ⟨?_, hfit⟩
    simp only [Conn.read, Conn.unread, List.length_drop] at hfit ⊢
    rw [cInt_eq (by omega) (by omega)]
    omega

theorem message (h : Inv env msgs reads s) {msg : List UInt8} {rest : List (List UInt8)}
    {len : Int} (hpc : s.pc = .loop len) (hdrop : msgs.drop s.calls.length = msg :: rest)
    (hle : msg.length ≤ s.conn.unread.length) :
    Inv env msgs reads
      { s with
        conn := s.conn.consume msg.length
        calls := s.calls ++ [Call.whole msg]
        pc := if env.handled (s.calls ++ [Call.whole msg]) then .loop (cInt (len - msg.length))
          else .stopped } := by
  obtain ⟨rfl, hlt⟩ := h.loop len hpc
  have htake := take_of_drop hdrop
  have htail := h.tail_le
  simp only [Conn.unread, List.length_drop] at hle hlt
  refine
    { handed := ?_
      tail_eq := ?_
      tail_le := ?_
      arrived := h.arrived
      ready := by intro hready; simp only at hready; split at hready <;> cases hready
      loop := ?_
      stopped := ?_ }
  · simp only [List.length_append, List.length_singleton, htake, List.map_append, ← h.handed]
    rfl
  · simp only [List.length_append, List.length_singleton, htake, List.flatten_append,
      Conn.consume, h.tail_eq, List.flatten_singleton]
  · change s.conn.tail + msg.length ≤ s.conn.received.length
    omega
  · intro len hloop
    simp only at hloop
    split at hloop
    · cases hloop
      simp only [Conn.unread, Conn.consume, List.length_drop]
      rw [cInt_eq (by omega) (by omega)]
      omega
    · cases hloop
  · intro hstop
    simp only at hstop
    split at hstop
    · cases hstop
    · next hhandled => exact .inl (by simpa using hhandled)

theorem exit (h : Inv env msgs reads s) (hwf : ∀ msg ∈ msgs, WellFormed msg)
    (hlen : s.conn.unread.length < 8) :
    Inv env msgs reads { s with pc := if env.flushed s.calls then .ready else .stopped } where
  handed := h.handed
  tail_eq := h.tail_eq
  tail_le := h.tail_le
  arrived := h.arrived
  ready := by
    intro _ msg rest hdrop
    have := (hwf msg (List.mem_of_mem_drop (hdrop ▸ List.mem_cons_self))).min
    change s.conn.unread.length < msg.length
    omega
  loop := by
    intro len hloop
    simp only at hloop
    split at hloop <;> cases hloop
  stopped := by
    intro hstop
    simp only at hstop
    split at hstop
    · cases hstop
    · next hflushed => exact .inr (by simpa using hflushed)

/-- What a step of the proxy is, when a message that is handed on has arrived. -/
theorem step_eq (h : Inv env msgs reads s) (hwf : ∀ msg ∈ msgs, WellFormed msg)
    (hreads : reads.flatten <+: msgs.flatten)
    (hnext : ∀ len, s.pc = .loop len → 8 ≤ s.conn.unread.length → ∃ msg rest,
      msgs.drop s.calls.length = msg :: rest ∧ msg.length ≤ s.conn.unread.length)
    {t : State} (hstep : step env s = some t) :
    (∃ chunk rest, s.pc = .ready ∧ s.pending = chunk :: rest ∧ t =
      { s with conn := (s.conn.read chunk).1, pending := rest, pc := .loop (s.conn.read chunk).2 }) ∨
    (∃ len msg rest, s.pc = .loop len ∧ msgs.drop s.calls.length = msg :: rest ∧
      msg.length ≤ s.conn.unread.length ∧ t =
      { s with
        conn := s.conn.consume msg.length
        calls := s.calls ++ [Call.whole msg]
        pc := if env.handled (s.calls ++ [Call.whole msg]) then .loop (cInt (len - msg.length))
          else .stopped }) ∨
    (∃ len, s.pc = .loop len ∧ s.conn.unread.length < 8 ∧
      t = { s with pc := if env.flushed s.calls then .ready else .stopped }) := by
  unfold Proxy.step at hstep
  split at hstep
  · next hpc =>
    split at hstep
    · cases hstep
    · next chunk rest hpending =>
      cases hstep
      exact .inl ⟨chunk, rest, hpc, hpending, rfl⟩
  · next len hpc =>
    obtain ⟨hcount, hlt⟩ := h.loop len hpc
    rw [hcount, sizeT_natCast (by omega)] at hstep
    split at hstep
    · next hlen =>
      cases hstep
      obtain ⟨msg, rest, hdrop, hle⟩ := hnext len hpc hlen
      have hmem : msg ∈ msgs := List.mem_of_mem_drop (hdrop ▸ List.mem_cons_self)
      exact .inr (.inl ⟨_, msg, rest, hcount ▸ hpc, hdrop, hle,
        h.handleNext_eq hreads (hwf msg hmem) hdrop hle _⟩)
    · next hlen =>
      cases hstep
      exact .inr (.inr ⟨len, hpc, by omega, rfl⟩)
  · cases hstep

theorem step (h : Inv env msgs reads s) (hwf : ∀ msg ∈ msgs, WellFormed msg)
    (hreads : reads.flatten <+: msgs.flatten) (hfits : ReadFits msgs reads)
    (hnext : ∀ len, s.pc = .loop len → 8 ≤ s.conn.unread.length → ∃ msg rest,
      msgs.drop s.calls.length = msg :: rest ∧ msg.length ≤ s.conn.unread.length)
    {t : State} (hstep : step env s = some t) : Inv env msgs reads t := by
  obtain ⟨chunk, rest, hpc, hpending, rfl⟩ | ⟨len, msg, rest, hpc, hdrop, hle, rfl⟩ |
    ⟨len, hpc, hlen, rfl⟩ := h.step_eq hwf hreads hnext hstep
  · exact h.read hfits hpc hpending
  · exact h.message hpc hdrop hle
  · exact h.exit hwf hlen

end Inv

theorem start_inv (env : Env) (msgs : List (List UInt8)) (stale : Nat → UInt8)
    (reads : List (List UInt8)) (hwf : ∀ msg ∈ msgs, WellFormed msg) :
    Inv env msgs reads (start stale reads) where
  handed := rfl
  tail_eq := rfl
  tail_le := le_rfl
  arrived := ⟨[], rfl, rfl⟩
  ready := by
    rintro _ msg rest hdrop
    have := (hwf msg (List.mem_of_mem_drop (hdrop ▸ List.mem_cons_self))).min
    change 0 < msg.length
    omega
  loop := by rintro _ ⟨⟩
  stopped := by rintro ⟨⟩

/-! ### Enough: fewer than eight bytes are left over -/

theorem reachable_inv (hwf : ∀ msg ∈ msgs, WellFormed msg) (hreads : reads.flatten <+: msgs.flatten)
    (hfits : ReadFits msgs reads)
    (hrest : ∀ done, done <+: reads → remainder msgs done.flatten.length < 8) {s : State}
    (hs : (system env stale reads).Reachable s) : Inv env msgs reads s := by
  refine hs.invariant (Inv env msgs reads) ?_ ?_
  · rintro _ rfl
    exact start_inv env msgs stale reads hwf
  · intro s t h hstep
    refine h.step hwf hreads hfits ?_ hstep
    intro len _ hlen
    obtain ⟨done, hdone, hreceived⟩ := h.arrived
    exact h.next_message hlen (hreceived ▸ hrest done ⟨s.pending, hdone.symm⟩)

/-- How many steps are left: the messages to be handed on and two for each read. -/
def State.rank (msgs : List (List UInt8)) (s : State) : Nat :=
  msgs.length - s.calls.length + 2 * s.pending.length +
    match s.pc with
    | .loop _ => 1
    | _ => 0

theorem step_ready {s : State} {chunk : List UInt8} {rest : List (List UInt8)}
    (hpc : s.pc = .ready) (hpending : s.pending = chunk :: rest) :
    step env s = some
      { s with conn := (s.conn.read chunk).1, pending := rest, pc := .loop (s.conn.read chunk).2 } := by
  simp only [step, hpc, hpending]

theorem step_loop {s : State} {len : Int} (hpc : s.pc = .loop len) (hlen : 8 ≤ sizeT len) :
    step env s = some (handleNext env s len) := by
  unfold step
  rw [hpc]
  exact if_pos hlen

theorem exists_step {s : State} (hs : ¬ s.Ended) : ∃ t, step env s = some t := by
  unfold step
  split
  · next hpc =>
    split
    · next hpending => exact absurd (.inr ⟨hpc, hpending⟩) hs
    · exact ⟨_, rfl⟩
  · split <;> exact ⟨_, rfl⟩
  · next hpc => exact absurd (.inl hpc) hs

theorem Inv.rank_lt {s t : State} (h : Inv env msgs reads s) (hwf : ∀ msg ∈ msgs, WellFormed msg)
    (hreads : reads.flatten <+: msgs.flatten)
    (hrest : ∀ done, done <+: reads → remainder msgs done.flatten.length < 8)
    (hstep : Proxy.step env s = some t) : t.rank msgs < s.rank msgs := by
  obtain ⟨done, hdone, hreceived⟩ := h.arrived
  obtain ⟨chunk, rest, hpc, hpending, rfl⟩ | ⟨len, msg, rest, hpc, hdrop, hle, rfl⟩ |
    ⟨len, hpc, hlen, rfl⟩ := h.step_eq hwf hreads (fun _ _ hlen =>
      h.next_message hlen (hreceived ▸ hrest done ⟨s.pending, hdone.symm⟩)) hstep
  · simp only [State.rank, hpc, hpending, List.length_cons]
    omega
  · have hlt : s.calls.length < msgs.length := by
      by_contra hge
      rw [List.drop_eq_nil_of_le (by omega)] at hdrop
      cases hdrop
    simp only [State.rank, hpc, List.length_append, List.length_singleton]
    split <;> omega
  · cases env.flushed s.calls <;> simp [State.rank, hpc]

theorem framing_of_short_remainders (hwf : ∀ msg ∈ msgs, WellFormed msg)
    (hreads : reads.flatten <+: msgs.flatten) (hfits : ReadFits msgs reads)
    (hrest : ∀ done, done <+: reads → remainder msgs done.flatten.length < 8) :
    Framing msgs stale reads := by
  intro env
  have hinv {s : State} (hs : (system env stale reads).Reachable s) : Inv env msgs reads s :=
    reachable_inv hwf hreads hfits hrest hs
  refine ⟨fun s hs => (hinv hs).framed hreads, ?_⟩
  have hstart : (system env stale reads).Reachable (start stale reads) := .start rfl
  obtain ⟨s, hs, _, hend⟩ := hstart.ends (system env stale reads).Reachable State.Ended
    (State.rank msgs) (fun s hs hend => by
      obtain ⟨t, ht⟩ := exists_step hend
      exact ⟨t, ht, .next hs ht, (hinv hs).rank_lt hwf hreads hrest ht⟩) hstart
  exact ⟨s, hs, hend⟩

/-! ### Necessary -/

/-- Where the calls are right, the message that was handed on had arrived. -/
theorem Inv.next_of_framed {s : State} {len : Int} (h : Inv env msgs reads s)
    (hf : Framed env msgs (handleNext env s len)) :
    ∃ msg rest, msgs.drop s.calls.length = msg :: rest ∧ msg.length ≤ s.conn.unread.length := by
  obtain ⟨call, hcalls⟩ : ∃ call, (handleNext env s len).calls = s.calls ++ [call] := ⟨_, rfl⟩
  have hhanded := hf.handed
  have hbuffered : _ ≤ s.conn.received.length := hf.buffered
  rw [hcalls, List.length_append, List.length_singleton] at hhanded
  cases hdrop : msgs.drop s.calls.length with
  | nil =>
      have hlen := congrArg List.length hhanded
      rw [List.drop_eq_nil_iff] at hdrop
      simp only [List.length_append, List.length_singleton, List.length_map, List.length_take] at hlen
      omega
  | cons msg rest =>
      refine ⟨msg, rest, rfl, ?_⟩
      rw [take_of_drop hdrop, List.map_append, ← h.handed] at hhanded
      have hcall : call = Call.whole msg := by simpa using hhanded
      rw [hcalls, hcall, List.map_append, List.flatten_append, List.length_append, h.handed_bytes,
        ← h.tail_eq] at hbuffered
      simp only [List.map_singleton, Call.whole, List.flatten_singleton] at hbuffered
      rw [Conn.unread, List.length_drop]
      omega

/-- The reads dealt with so far left fewer than eight bytes each. -/
def Settled (msgs reads : List (List UInt8)) (s : State) : Prop :=
  ∀ done rest, reads = done ++ rest →
    s.pending.length < rest.length ∨ (s.pc = .ready ∧ s.pending.length = rest.length) →
    remainder msgs done.flatten.length < 8

theorem Inv.settled {s t : State} (h : Inv env msgs reads s) (ht : Inv env msgs reads t)
    (hs : Settled msgs reads s) (hwf : ∀ msg ∈ msgs, WellFormed msg)
    (hreads : reads.flatten <+: msgs.flatten)
    (hnext : ∀ len, s.pc = .loop len → 8 ≤ s.conn.unread.length → ∃ msg rest,
      msgs.drop s.calls.length = msg :: rest ∧ msg.length ≤ s.conn.unread.length)
    (hstep : Proxy.step env s = some t) : Settled msgs reads t := by
  intro done rest hdone hpending
  obtain ⟨chunk, more, hpc, hchunk, rfl⟩ | ⟨len, msg, more, hpc, hdrop, hle, rfl⟩ |
    ⟨len, hpc, hlen, rfl⟩ := h.step_eq hwf hreads hnext hstep
  · refine hs done rest hdone ?_
    have hlong : more.length < rest.length := by simpa using hpending
    rw [hchunk, List.length_cons]
    by_cases heq : more.length + 1 = rest.length
    · exact .inr ⟨hpc, heq⟩
    · exact .inl (by omega)
  · refine hs done rest hdone (.inl ?_)
    obtain hlong | ⟨hready, _⟩ := hpending
    · exact hlong
    · simp only at hready
      split at hready <;> cases hready
  · obtain hlong | ⟨hready, heq⟩ := hpending
    · exact hs done rest hdone (.inl hlong)
    · obtain ⟨arrived, harrived, hreceived⟩ := ht.arrived
      have hsame : arrived = done := by
        refine (List.append_inj' (harrived.symm.trans hdone) ?_).1
        exact heq
      have hleft := ht.remainder_ready hready
      rw [hreceived, hsame] at hleft
      rw [hleft]
      exact hlen

theorem short_remainders_of_framing (hwf : ∀ msg ∈ msgs, WellFormed msg)
    (hreads : reads.flatten <+: msgs.flatten) (hfits : ReadFits msgs reads)
    (hframing : Framing msgs stale reads) :
    ∀ done, done <+: reads → remainder msgs done.flatten.length < 8 := by
  -- nothing outside the loop fails
  let env : Env := ⟨fun _ => true, fun _ => true⟩
  obtain ⟨hframed, last, hlast, hend⟩ := hframing env
  have hall : ∀ {s}, (system env stale reads).Reachable s →
      Inv env msgs reads s ∧ Settled msgs reads s := by
    intro s hs
    induction hs with
    | start hinit =>
        obtain rfl := hinit
        have h := start_inv env msgs stale reads hwf
        refine ⟨h, ?_⟩
        intro done rest hdone hpending
        have hnil : done = [] := by
          have hlen := congrArg List.length hdone
          simp only [List.length_append] at hlen
          simp only [start] at hpending
          exact List.length_eq_zero_iff.mp (by omega)
        have hzero := h.remainder_ready rfl
        rw [hnil]
        simp only [start, Conn.unread, List.length_nil, List.drop_nil] at hzero
        simp [hzero]
    | @next s t hs hst ih =>
        obtain ⟨h, hsettled⟩ := ih
        have hnext : ∀ len, s.pc = .loop len → 8 ≤ s.conn.unread.length → ∃ msg rest,
            msgs.drop s.calls.length = msg :: rest ∧ msg.length ≤ s.conn.unread.length := by
          intro len hpc hlen
          obtain ⟨hcount, hlt⟩ := h.loop len hpc
          have hbody : step env s = some (handleNext env s len) :=
            step_loop hpc (by rw [hcount, sizeT_natCast (by omega)]; exact hlen)
          exact h.next_of_framed (hframed _ (.next hs hbody))
        have ht := h.step hwf hreads hfits hnext hst
        exact ⟨ht, h.settled ht hsettled hwf hreads hnext hst⟩
  obtain ⟨h, hsettled⟩ := hall hlast
  rintro done ⟨rest, hdone⟩
  obtain hstop | ⟨hready, hnil⟩ := hend
  · simpa [env] using h.stopped hstop
  · refine hsettled done rest hdone.symm ?_
    rw [hnil]
    cases rest with
    | nil => exact .inr ⟨hready, rfl⟩
    | cons _ _ => exact .inl (by simp)

/-- The proxy frames the peer's messages if and only if no read ends with eight or
more bytes of a message that is not complete. -/
theorem framing_iff_short_remainders (stale : Nat → UInt8) (hwf : ∀ msg ∈ msgs, WellFormed msg)
    (hreads : reads.flatten <+: msgs.flatten) (hfits : ReadFits msgs reads) :
    Framing msgs stale reads ↔ ∀ done, done <+: reads → remainder msgs done.flatten.length < 8 :=
  ⟨short_remainders_of_framing hwf hreads hfits, framing_of_short_remainders hwf hreads hfits⟩

/-- `wl_display.sync` with the new id 7. -/
def syncMessage : List UInt8 := [1, 0, 0, 0, 0, 0, 12, 0, 7, 0, 0, 0]

theorem framing_iff_short_remainders_split :
    WellFormed syncMessage ∧
      Framing [syncMessage, syncMessage] (fun _ => 0)
        [syncMessage ++ syncMessage.take 3, syncMessage.drop 3] := by
  have hwf : WellFormed syncMessage := ⟨by decide, by decide, by decide, by decide⟩
  refine ⟨hwf, (framing_iff_short_remainders _ ?_ ?_ ?_).mpr ?_⟩
  · intro msg hmsg
    obtain rfl : msg = syncMessage := by simpa using hmsg
    exact hwf
  · exact ⟨[], by decide⟩
  · exact .of_total (by decide)
  · intro done hdone
    rw [← List.mem_inits] at hdone
    revert done
    decide

/-- One message whose header and argument arrive in two reads is handed on before
its argument is there. -/
theorem header_alone_not_framing :
    WellFormed syncMessage ∧
      [syncMessage.take 8, syncMessage.drop 8].flatten = [syncMessage].flatten ∧
      ¬ Framing [syncMessage] (fun _ => 0) [syncMessage.take 8, syncMessage.drop 8] := by
  refine ⟨⟨by decide, by decide, by decide, by decide⟩, by decide, ?_⟩
  intro h
  let env : Env := ⟨fun _ => true, fun _ => true⟩
  let s := start (fun _ => 0) [syncMessage.take 8, syncMessage.drop 8]
  let len := (s.conn.read (syncMessage.take 8)).2
  let looping : State :=
    { s with
      conn := (s.conn.read (syncMessage.take 8)).1
      pending := [syncMessage.drop 8]
      pc := .loop len }
  have hread : step env s = some looping := step_ready rfl rfl
  have hbody : step env looping = some (handleNext env looping len) :=
    step_loop rfl (by decide)
  have hbuffered := ((h env).1 _ (.next (.next (.start rfl) hread) hbody)).buffered
  exact absurd hbuffered (by decide)

end Stratus.Capture.Proxy
