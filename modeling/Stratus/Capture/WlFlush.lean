import Stratus.Capture.WlRing

/-! The output side of a `struct wl_connection`: messages and their file descriptors are queued and
sent later, in pieces of any size.  No byte is lost, and a message never arrives before its file
descriptors. -/
namespace Stratus.Capture.WlFlush

open Stratus.Lib Stratus.Capture.WlRing

/-- `MAX_FDS_OUT`. -/
def maxFdsOut : Nat := 28

/-- `WL_BUFFER_DEFAULT_MAX_SIZE`. -/
def defaultMaxSize : Nat := 4096

/-- What `sendmsg` returns: it takes one byte at least, and as many as `n` more, or it fails with
`EAGAIN` or another error. -/
inductive SendResult where
  | accepts (n : Nat)
  | again
  | error

/-- The buffer of the file descriptors is a queue, as its bytes are.  `sent` and `sentFds` are what
`sendmsg` has taken so far. -/
structure Connection where
  out : RingBuffer
  fdsOut : List Int
  wantFlush : Bool
  sent : List UInt8
  sentFds : List Int

inductive Flushed where
  | done
  | again
  | error
deriving DecidableEq

/-- The bytes that `sendmsg` is given: one byte when there may be more file descriptors than fit
into one call. -/
def iov (c : Connection) : List UInt8 :=
  if maxFdsOut ≤ c.fdsOut.length then slice c.out.data (c.out.mask c.out.tail) 1 else c.out.gather

/-- `sendmsg` takes some of the bytes, and the file descriptors with them. -/
def accept (c : Connection) (n : Nat) : Connection :=
  let bytes := (iov c).take (n + 1)
  { c with
    out := c.out.consume bytes.length
    fdsOut := c.fdsOut.drop maxFdsOut
    sent := c.sent ++ bytes
    sentFds := c.sentFds ++ c.fdsOut.take maxFdsOut }

/-- The loop of `wl_connection_flush`, with what the calls of `sendmsg` return. -/
def flushLoop (c : Connection) : List SendResult → Flushed × Connection × List SendResult
  | [] => if c.out.size = 0 then (.done, { c with wantFlush := false }, []) else (.again, c, [])
  | result :: results =>
      if c.out.size = 0 then (.done, { c with wantFlush := false }, result :: results)
      else
        match result with
        | .again => (.again, c, results)
        | .error => (.error, c, results)
        | .accepts n => flushLoop (accept c n) results

def wlConnectionFlush (c : Connection) (results : List SendResult) :
    Flushed × Connection × List SendResult :=
  if c.wantFlush then flushLoop c results else (.done, c, results)

/-- A flush whose `EAGAIN` does not matter. -/
def tryFlush (c : Connection) (results : List SendResult) : Option (Connection × List SendResult) :=
  match wlConnectionFlush { c with wantFlush := true } results with
  | (.error, _, _) => none
  | (_, c, results) => some (c, results)

def flushWhen (full : Bool) (x : Connection × List SendResult) :
    Option (Connection × List SendResult) :=
  if full then tryFlush x.1 x.2 else some x

/-- `wl_connection_put_fd`. -/
def putFd (x : Connection × List SendResult) (fd : Int) : Option (Connection × List SendResult) := do
  let (c, results) ← flushWhen (maxFdsOut ≤ x.1.fdsOut.length) x
  if RingBuffer.limit c.out.maxSizeBits < 4 * (c.fdsOut.length + 1) then none
  else some ({ c with fdsOut := c.fdsOut ++ [fd] }, results)

/-- `wl_connection_write`. -/
def write (x : Connection × List SendResult) (bytes : List UInt8) :
    Option (Connection × List SendResult) := do
  let (c, results) ← flushWhen (defaultMaxSize < x.1.out.size + bytes.length) x
  let out ← (c.out.ensureSpace bytes.length true).toOption
  some ({ c with out := out.put bytes, wantFlush := true }, results)

/-- The bytes of a message and its file descriptors. -/
structure Message where
  bytes : List UInt8
  fds : List Int

/-- `wl_closure_send`, when the closure has been serialized. -/
def closureSend (x : Connection × List SendResult) (message : Message) :
    Option (Connection × List SendResult) := do
  let x ← message.fds.foldlM putFd x
  write x message.bytes

structure State where
  connection : Connection
  messages : List Message

def start (maxSizeBits : Nat) : State := ⟨⟨.create maxSizeBits true, [], false, [], []⟩, []⟩

/-- A message has bytes, and no more file descriptors than a closure has arguments. -/
def Message.Small (message : Message) : Prop := 0 < message.bytes.length ∧ message.fds.length ≤ 20

instance (message : Message) : Decidable message.Small :=
  inferInstanceAs (Decidable (_ ∧ _))

/-- Messages are sent and the connection is flushed, with any results of `sendmsg`, until something
fails. -/
def system (maxSizeBits : Nat) : System State where
  init s := s = start maxSizeBits
  step s t :=
    (∃ message results rest, message.Small ∧
      closureSend (s.connection, results) message = some (t.connection, rest) ∧
      t.messages = s.messages ++ [message]) ∨
    ∃ results rest, (wlConnectionFlush s.connection results = (.done, t.connection, rest) ∨
      wlConnectionFlush s.connection results = (.again, t.connection, rest)) ∧ t.messages = s.messages

/-! ## What is kept -/

/-- `extra` are the file descriptors of a message whose bytes have not been written. -/
structure Kept (c : Connection) (messages : List Message) (extra : List Int) : Prop where
  valid : c.out.Valid
  bytes : c.sent ++ c.out.contents = messages.flatMap Message.bytes
  fds : c.sentFds ++ c.fdsOut = messages.flatMap Message.fds ++ extra
  timely : ((whole Message.bytes messages c.sent.length).flatMap Message.fds).length ≤
    c.sentFds.length
  idle : c.wantFlush = false → c.out.size = 0

section Kept

variable {c c' : Connection} {messages : List Message} {extra : List Int}
  {results rest : List SendResult}

theorem length_fds_le (h : Kept c messages extra) (n : Nat) :
    ((whole Message.bytes messages n).flatMap Message.fds).length ≤
      c.sentFds.length + c.fdsOut.length := by
  obtain ⟨later, hlater⟩ := whole_prefix Message.bytes messages n
  have hfds := congrArg List.length h.fds
  rw [← hlater, List.flatMap_append] at hfds
  simp only [List.length_append] at hfds
  omega

theorem iov_eq (h : Kept c messages extra) (hpos : 0 < c.out.size) :
    iov c = if maxFdsOut ≤ c.fdsOut.length then c.out.contents.take 1 else c.out.contents := by
  have hmask := c.out.mask_lt c.out.tail
  have hone : slice c.out.data (c.out.mask c.out.tail) 1 = c.out.contents.take 1 := by
    have hcopy := h.valid.copy hpos
    rw [RingBuffer.copy, RingBuffer.gatherParts_parts, Nat.min_eq_right (by omega), Nat.sub_self] at hcopy
    exact (List.append_nil _).symm.trans hcopy
  rw [iov, hone, h.valid.gather hpos]

theorem Kept.accept (hsmall : ∀ message ∈ messages, message.Small) (h : Kept c messages extra)
    (hpos : 0 < c.out.size) (n : Nat) : Kept (accept c n) messages extra := by
  have hiov := iov_eq h hpos
  have hsize := h.valid.length_contents
  obtain ⟨k, hk⟩ : ∃ k, k = ((iov c).take (n + 1)).length := ⟨_, rfl⟩
  have htake : (iov c).take (n + 1) = c.out.contents.take k := by
    have hprefix : (iov c).take (n + 1) <+: c.out.contents := by
      refine (List.take_prefix _ _).trans ?_
      rw [hiov]
      split
      · exact List.take_prefix 1 _
      · exact List.prefix_refl _
    rw [hk]
    exact List.prefix_iff_eq_take.mp hprefix
  have hle : k ≤ c.out.size := by
    have hlength := congrArg List.length htake
    rw [← hk, List.length_take] at hlength
    omega
  obtain ⟨hvalid, hcontents⟩ := h.valid.consume hle
  have hfds := h.fds
  have hlength := length_fds_le h
  have htimely := h.timely
  rw [WlFlush.accept, ← hk, htake]
  refine ⟨hvalid, ?_, ?_, ?_, fun hwant => ?_⟩
  · show c.sent ++ c.out.contents.take k ++ (c.out.consume k).contents = _
    rw [hcontents, List.append_assoc, List.take_append_drop, h.bytes]
  · show c.sentFds ++ c.fdsOut.take maxFdsOut ++ c.fdsOut.drop maxFdsOut = _
    rw [List.append_assoc, List.take_append_drop, hfds]
  · show ((whole Message.bytes messages (c.sent ++ c.out.contents.take k).length).flatMap
      Message.fds).length ≤ (c.sentFds ++ c.fdsOut.take maxFdsOut).length
    rw [List.length_append, List.length_append, List.length_take, List.length_take]
    have hmin : min k c.out.contents.length = k := Nat.min_eq_left (hsize.symm ▸ hle)
    rw [hmin]
    by_cases hmany : maxFdsOut ≤ c.fdsOut.length
    · -- one byte, which completes one message at most
      have hone : k = 1 := by
        rw [hk, hiov, if_pos hmany, List.length_take, List.length_take]
        omega
      rw [hone]
      rcases whole_succ (fun message hmem => (hsmall message hmem).1) c.sent.length with
        hsame | ⟨message, hmem, hmore⟩
      · rw [hsame]
        omega
      · have hfew := (hsmall message hmem).2
        have hmax : maxFdsOut = 28 := rfl
        rw [hmore, List.flatMap_append, List.length_append, List.flatMap_singleton]
        omega
    · have hall := hlength (c.sent.length + k)
      omega
  · have hzero := h.idle hwant
    omega

theorem Kept.flushLoop (hsmall : ∀ message ∈ messages, message.Small) (h : Kept c messages extra)
    (results : List SendResult) : Kept (flushLoop c results).2.1 messages extra := by
  induction results generalizing c with
  | nil =>
      rw [WlFlush.flushLoop]
      split
      · next hzero => exact ⟨h.valid, h.bytes, h.fds, h.timely, fun _ => hzero⟩
      · exact h
  | cons result results ih =>
      unfold WlFlush.flushLoop
      by_cases hzero : c.out.size = 0
      · rw [if_pos hzero]
        exact ⟨h.valid, h.bytes, h.fds, h.timely, fun _ => hzero⟩
      · rw [if_neg hzero]
        cases result with
        | accepts n => exact ih (h.accept hsmall (Nat.pos_of_ne_zero hzero) n)
        | again => exact h
        | error => exact h

theorem Kept.wlConnectionFlush (hsmall : ∀ message ∈ messages, message.Small)
    (h : Kept c messages extra) (results : List SendResult) :
    Kept (wlConnectionFlush c results).2.1 messages extra := by
  rw [WlFlush.wlConnectionFlush]
  split
  · exact h.flushLoop hsmall results
  · exact h

theorem Kept.tryFlush (hsmall : ∀ message ∈ messages, message.Small) (h : Kept c messages extra)
    (hflush : tryFlush c results = some (c', rest)) : Kept c' messages extra := by
  have hwant : Kept { c with wantFlush := true } messages extra :=
    ⟨h.valid, h.bytes, h.fds, h.timely, fun hfalse => Bool.noConfusion hfalse⟩
  have hkept := hwant.wlConnectionFlush hsmall results
  rw [WlFlush.tryFlush] at hflush
  rcases hresult : WlFlush.wlConnectionFlush { c with wantFlush := true } results with
    ⟨flushed, c'', rest'⟩
  rw [hresult] at hflush hkept
  cases flushed with
  | error => cases hflush
  | done | again =>
      cases hflush
      exact hkept

theorem Kept.flushWhen {full : Bool} (hsmall : ∀ message ∈ messages, message.Small)
    (h : Kept c messages extra) (hflush : flushWhen full (c, results) = some (c', rest)) :
    Kept c' messages extra := by
  rw [WlFlush.flushWhen] at hflush
  split at hflush
  · exact h.tryFlush hsmall hflush
  · cases hflush
    exact h

theorem Kept.putFd (hsmall : ∀ message ∈ messages, message.Small) (h : Kept c messages extra) (fd : Int)
    (hput : putFd (c, results) fd = some (c', rest)) : Kept c' messages (extra ++ [fd]) := by
  rw [WlFlush.putFd] at hput
  obtain ⟨⟨d, rest'⟩, hd, hfits⟩ := Option.bind_eq_some_iff.mp hput
  have hkept := h.flushWhen hsmall hd
  dsimp only at hfits
  split at hfits
  · cases hfits
  · cases hfits
    refine ⟨hkept.valid, hkept.bytes, ?_, hkept.timely, hkept.idle⟩
    rw [← List.append_assoc, hkept.fds, List.append_assoc]

theorem Kept.putFds (hsmall : ∀ message ∈ messages, message.Small) (h : Kept c messages extra)
    (fds : List Int) (hput : fds.foldlM WlFlush.putFd (c, results) = some (c', rest)) :
    Kept c' messages (extra ++ fds) := by
  induction fds generalizing c results extra with
  | nil =>
      cases hput
      rwa [List.append_nil]
  | cons fd fds ih =>
      rw [List.foldlM_cons] at hput
      obtain ⟨⟨d, rest'⟩, hd, hput⟩ := Option.bind_eq_some_iff.mp hput
      have hkept := ih (h.putFd hsmall fd hd) hput
      rwa [List.append_assoc, List.singleton_append] at hkept

/-- Nothing of the new message has been sent. -/
theorem Kept.write {message : Message} (hsmall : ∀ earlier ∈ messages, earlier.Small)
    (hbytes : 0 < message.bytes.length) (h : Kept c messages message.fds)
    (hwrite : write (c, results) message.bytes = some (c', rest)) :
    Kept c' (messages ++ [message]) [] := by
  rw [WlFlush.write] at hwrite
  obtain ⟨⟨d, rest'⟩, hd, hwrite⟩ := Option.bind_eq_some_iff.mp hwrite
  obtain ⟨out, hout, hwrite⟩ := Option.bind_eq_some_iff.mp hwrite
  cases hwrite
  have hkept := h.flushWhen hsmall hd
  have husable : d.out.Usable := .valid hkept.valid
  rcases husable.ensureSpace message.bytes.length true with
    ⟨-, hrefused⟩ | ⟨-, -, hrefused⟩ | ⟨-, -, b, hsome, hensured⟩
  · rw [hrefused] at hout
    cases hout
  · rw [hrefused] at hout
    cases hout
  · rw [hsome] at hout
    cases hout
    have hsize := hensured.size husable
    have hroom := hensured.room
    have hcontents := hensured.contents
    obtain ⟨hput, hqueue⟩ := hensured.valid.put message.bytes (by omega)
    have hsent := congrArg List.length hkept.bytes
    rw [List.length_append, List.flatMap_def] at hsent
    refine ⟨hput, ?_, ?_, ?_, fun hfalse => Bool.noConfusion hfalse⟩
    · rw [hqueue, hcontents, ← List.append_assoc, hkept.bytes, List.flatMap_append,
        List.flatMap_singleton]
    · rw [List.flatMap_append, List.flatMap_singleton, List.append_nil]
      exact hkept.fds
    · have hold : whole Message.bytes (messages ++ [message]) d.sent.length =
          whole Message.bytes messages d.sent.length := whole_snoc hbytes (by omega)
      show ((whole Message.bytes (messages ++ [message]) d.sent.length).flatMap _).length ≤ _
      rw [hold]
      exact hkept.timely

theorem Kept.closureSend {message : Message} (hsmall : ∀ earlier ∈ messages, earlier.Small)
    (hbytes : 0 < message.bytes.length) (h : Kept c messages [])
    (hsend : closureSend (c, results) message = some (c', rest)) :
    Kept c' (messages ++ [message]) [] := by
  obtain ⟨⟨d, rest'⟩, hd, hwrite⟩ := Option.bind_eq_some_iff.mp hsend
  exact (h.putFds hsmall message.fds hd).write hsmall hbytes hwrite

/-- When every byte has been sent, every file descriptor has. -/
theorem Kept.all_sent (h : Kept c messages []) (hempty : c.out.size = 0) :
    c.sent = messages.flatMap Message.bytes ∧ c.sentFds = messages.flatMap Message.fds := by
  have hbytes := h.bytes
  rw [List.length_eq_zero_iff.mp (h.valid.length_contents.trans hempty), List.append_nil] at hbytes
  have htimely := h.timely
  rw [hbytes, List.flatMap_def (l := messages), whole_all] at htimely
  have hfds := h.fds
  rw [List.append_nil] at hfds
  refine ⟨hbytes, ?_⟩
  have hnone : c.fdsOut = [] := by
    have hlength := congrArg List.length hfds
    rw [List.length_append] at hlength
    exact List.length_eq_zero_iff.mp (by omega)
  rwa [hnone, List.append_nil] at hfds

theorem flushLoop_done (hdone : flushLoop c results = (.done, c', rest)) : c'.out.size = 0 := by
  induction results generalizing c with
  | nil =>
      rw [flushLoop] at hdone
      split at hdone
      · next hzero =>
        cases hdone
        exact hzero
      · cases hdone
  | cons result results ih =>
      unfold flushLoop at hdone
      by_cases hzero : c.out.size = 0
      · rw [if_pos hzero] at hdone
        cases hdone
        exact hzero
      · rw [if_neg hzero] at hdone
        cases result with
        | accepts n => exact ih hdone
        | again => cases hdone
        | error => cases hdone

theorem Kept.flush_done (h : Kept c messages extra)
    (hdone : WlFlush.wlConnectionFlush c results = (.done, c', rest)) : c'.out.size = 0 := by
  rw [WlFlush.wlConnectionFlush] at hdone
  split at hdone
  · exact flushLoop_done hdone
  · next hwant =>
    cases hdone
    exact h.idle (Bool.eq_false_iff.mpr hwant)

end Kept

structure Inv (s : State) : Prop where
  small : ∀ message ∈ s.messages, message.Small
  kept : Kept s.connection s.messages []

theorem inv_start {maxSizeBits : Nat} (hmax : maxSizeBits ≤ 64) : Inv (start maxSizeBits) := by
  obtain ⟨hvalid, hcontents⟩ := RingBuffer.create_valid hmax
  have hsize := hvalid.length_contents
  rw [hcontents] at hsize
  exact ⟨fun message hmem => absurd hmem List.not_mem_nil, hvalid, hcontents, rfl, Nat.le_refl 0,
    fun _ => hsize.symm⟩

theorem Inv.step {maxSizeBits : Nat} {s t : State} (h : Inv s) (hstep : (system maxSizeBits).step s t) :
    Inv t := by
  obtain ⟨hsmall, hkept⟩ := h
  rcases hstep with ⟨message, results, rest, hmessage, hsend, hmessages⟩ | ⟨results, rest, hflush, hsame⟩
  · refine ⟨?_, hmessages ▸ hkept.closureSend hsmall hmessage.1 hsend⟩
    rw [hmessages]
    intro earlier hmem
    rcases List.mem_append.mp hmem with hold | hnew
    · exact hsmall earlier hold
    · exact List.eq_of_mem_singleton hnew ▸ hmessage
  · have hflushed := hkept.wlConnectionFlush hsmall results
    rcases hflush with hdone | hagain
    · rw [hdone] at hflushed
      exact ⟨hsame ▸ hsmall, hsame ▸ hflushed⟩
    · rw [hagain] at hflushed
      exact ⟨hsame ▸ hsmall, hsame ▸ hflushed⟩

/-- Whatever `sendmsg` takes at each call, what has been sent and what waits are together all that
was written, in order.  The file descriptors of every message that has been sent completely have
been sent too, and a flush that is done leaves nothing behind. -/
theorem sent_in_order (maxSizeBits : Nat) (hmax : maxSizeBits ≤ 64) (s : State)
    (h : (system maxSizeBits).Reachable s) :
    s.connection.sent ++ s.connection.out.contents = s.messages.flatMap Message.bytes ∧
      s.connection.sentFds ++ s.connection.fdsOut = s.messages.flatMap Message.fds ∧
      (whole Message.bytes s.messages s.connection.sent.length).flatMap Message.fds <+:
        s.connection.sentFds ∧
      ∀ results c rest, wlConnectionFlush s.connection results = (.done, c, rest) →
        c.sent = s.messages.flatMap Message.bytes ∧ c.sentFds = s.messages.flatMap Message.fds := by
  obtain ⟨hsmall, hkept⟩ : Inv s := h.invariant Inv
    (fun s (hinit : s = start maxSizeBits) => hinit ▸ inv_start hmax) (fun _ _ hinv hstep => hinv.step hstep)
  have hfds := hkept.fds
  rw [List.append_nil] at hfds
  refine ⟨hkept.bytes, hfds, ?_, fun results c rest hdone => ?_⟩
  · obtain ⟨later, hlater⟩ := whole_prefix Message.bytes s.messages s.connection.sent.length
    refine List.prefix_of_prefix_length_le ?_ ⟨_, hfds⟩ hkept.timely
    conv_rhs => rw [← hlater]
    rw [List.flatMap_append]
    exact List.prefix_append _ _
  · have hflushed := hkept.wlConnectionFlush hsmall results
    rw [hdone] at hflushed
    exact hflushed.all_sent (hkept.flush_done hdone)

def request : Message := ⟨[1, 0, 0, 0, 1, 0, 8, 0], [7]⟩

def later : Message := ⟨[2, 0, 0, 0, 3, 0, 8, 0], [8, 9]⟩

/-- A connection of 32 bytes with one request. -/
def requested : Connection :=
  ⟨⟨request.bytes ++ List.replicate 24 0, 8, 0, 5, 5⟩, [7], true, [], []⟩

/-- `sendmsg` has taken three of its bytes and then returned `EAGAIN`. -/
def interrupted : Connection :=
  ⟨⟨request.bytes ++ List.replicate 24 0, 8, 3, 5, 5⟩, [], true, [1, 0, 0], [7]⟩

def continued : Connection :=
  ⟨⟨request.bytes ++ later.bytes ++ List.replicate 16 0, 16, 3, 5, 5⟩, [8, 9], true, [1, 0, 0], [7]⟩

theorem continued_reachable : (system 5).Reachable ⟨continued, [request, later]⟩ := by
  have hstart : (system 5).Reachable (start 5) := .start rfl
  have hrequested : closureSend ((start 5).connection, []) request = some (requested, []) := rfl
  have hinterrupted :
      wlConnectionFlush requested [.accepts 2, .again] = (.again, interrupted, []) := rfl
  have hcontinued : closureSend (interrupted, []) later = some (continued, []) := rfl
  have hfirst : (system 5).Reachable ⟨requested, [request]⟩ :=
    .next hstart (.inl ⟨request, [], [], by decide, hrequested, rfl⟩)
  have hsecond : (system 5).Reachable ⟨interrupted, [request]⟩ :=
    .next hfirst (.inr ⟨[.accepts 2, .again], [], .inr hinterrupted, rfl⟩)
  exact .next hsecond (.inl ⟨later, [], [], by decide, hcontinued, rfl⟩)

theorem sent_in_order_continued :
    continued.sent ++ continued.out.contents = request.bytes ++ later.bytes ∧
      continued.sentFds ++ continued.fdsOut = [7, 8, 9] ∧
      (whole Message.bytes [request, later] 3).flatMap Message.fds <+: [7] ∧
      ∀ results c rest, wlConnectionFlush continued results = (.done, c, rest) →
        c.sent = request.bytes ++ later.bytes ∧ c.sentFds = [7, 8, 9] :=
  sent_in_order 5 (by decide) ⟨continued, [request, later]⟩ continued_reachable

end Stratus.Capture.WlFlush
