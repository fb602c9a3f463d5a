import Stratus.Capture.ProxyFraming

/-! One call of `proxy_handle_data`, whatever is buffered and whatever the read returns.  The
loop counts down an `int` and compares it as a `size_t`. -/
namespace Stratus.Capture.Proxy

open Stratus.Lib

/-- The call of `proxy_handle_message` that comes next. -/
def Conn.next (c : Conn) : Call :=
  ⟨parseHeader (c.copy 8), c.copy (parseHeader (c.copy 8)).size⟩

/-- After these calls, whether it returns 0 for this one. -/
def Env.Accepts (env : Env) (calls : List Call) (call : Call) : Prop :=
  8 ≤ call.header.size ∧ env.handled (calls ++ [call]) = true

/-- After `wl_connection_read`, which returns -1 or the number of bytes that are buffered. -/
def entered (stale : Nat → UInt8) (buffered : List UInt8) (failed : Bool) : State where
  conn := { received := buffered, tail := 0, stale := stale }
  pending := []
  calls := []
  pc := .loop (if failed then -1 else cInt buffered.length)

def readLoop (env : Env) (stale : Nat → UInt8) (buffered : List UInt8) (failed : Bool) :
    System State where
  init s := s = entered stale buffered failed
  step s t := step env s = some t

def State.Looping (s : State) : Prop := ∃ len, s.pc = .loop len

/-- The loop has ended with an error. -/
def State.Refused (env : Env) (s : State) : Prop :=
  ∃ calls call, s.calls = calls ++ [call] ∧ ¬ env.Accepts calls call

structure InBounds (env : Env) (buffered : List UInt8) (s : State) : Prop where
  header : ∀ len, s.pc = .loop len → 8 ≤ sizeT len → 8 ≤ s.conn.unread.length
  counter : ∀ len, s.pc = .loop len → 0 ≤ len
  rounds : s.calls.length ≤ buffered.length / 8
  ended : ¬ s.Looping → s.Refused env ∨ s.conn.unread.length < 8

/-- The loop stays within what is buffered, and it ends. -/
def LoopEnds (env : Env) (stale : Nat → UInt8) (buffered : List UInt8) (failed : Bool) : Prop :=
  (∀ s, (readLoop env stale buffered failed).Reachable s → InBounds env buffered s) ∧
    ∃ s, (readLoop env stale buffered failed).Reachable s ∧ ¬ s.Looping

/-- Whole messages at the front of the buffer, each handled with result 0. -/
structure Passed (env : Env) (buffered : List UInt8) (msgs : List (List UInt8)) : Prop where
  sized : ∀ msg ∈ msgs, 8 ≤ msg.length ∧ (parseHeader msg).size = msg.length
  front : msgs.flatten <+: buffered
  handled : ∀ k < msgs.length, env.handled ((msgs.take (k + 1)).map Call.whole) = true

/-- What the loop finds behind some messages. -/
def behind (stale : Nat → UInt8) (buffered : List UInt8) (msgs : List (List UInt8)) : Conn where
  received := buffered
  tail := msgs.flatten.length
  stale := stale

/-- A message whose header is within the count is refused. -/
def RefusedWithin (env : Env) (stale : Nat → UInt8) (buffered : List UInt8) (len : Int) : Prop :=
  ∃ msgs, Passed env buffered msgs ∧ (msgs.flatten.length : Int) + 8 ≤ len ∧
    ¬ env.Accepts (msgs.map Call.whole) (behind stale buffered msgs).next

/-- The number of buffered bytes as an `int` is right, and so is the size of every message that
is handled. -/
structure CountsRight (env : Env) (stale : Nat → UInt8) (buffered : List UInt8) : Prop where
  nonneg : 0 ≤ cInt buffered.length
  whole : ∀ msgs, Passed env buffered msgs →
    (msgs.flatten.length : Int) + 8 ≤ cInt buffered.length →
    env.Accepts (msgs.map Call.whole) (behind stale buffered msgs).next →
    ((msgs.flatten.length + (behind stale buffered msgs).next.header.size : Nat) : Int) ≤
      cInt buffered.length
  exact : cInt buffered.length = buffered.length ∨
    RefusedWithin env stale buffered (cInt buffered.length)

variable {env : Env} {stale : Nat → UInt8} {buffered : List UInt8} {msgs : List (List UInt8)}

/-! ### Messages at the front -/

theorem cInt_natCast_le {n : Nat} (h : 0 ≤ cInt n) : cInt n ≤ n := by
  unfold cInt Int.bmod at *
  simp only [Nat.cast_ofNat, Nat.cast_pow] at *
  split at h <;> split <;> omega

theorem cInt_natCast_eq {n : Nat} (h : 0 ≤ cInt n) (hlt : (n : Int) < cInt n + 2 ^ 32) :
    cInt n = n := by
  unfold cInt Int.bmod at *
  simp only [Nat.cast_ofNat, Nat.cast_pow] at *
  split at h <;> split at hlt <;> split <;> omega

theorem cInt_lt (x : Int) : cInt x < 2 ^ 31 := by
  unfold cInt Int.bmod
  simp only [Nat.cast_ofNat, Nat.cast_pow] at *
  split <;> omega

theorem Passed.nil (env : Env) (buffered : List UInt8) : Passed env buffered [] where
  sized := nofun
  front := List.nil_prefix
  handled := nofun

theorem unread_behind (stale : Nat → UInt8) (buffered : List UInt8) (msgs : List (List UInt8)) :
    (behind stale buffered msgs).unread = buffered.drop msgs.flatten.length := rfl

/-- Eight bytes for each message. -/
theorem Passed.mul_le (h : Passed env buffered msgs) : 8 * msgs.length ≤ msgs.flatten.length := by
  have hsized := h.sized
  clear h
  induction msgs with
  | nil => exact Nat.le_refl 0
  | cons msg rest ih =>
      have hmsg := (hsized msg List.mem_cons_self).1
      have hrest := ih fun msg hmem => hsized msg (List.mem_cons_of_mem _ hmem)
      rw [List.flatten_cons, List.length_append, List.length_cons]
      omega

/-- The next message is at the front too, once it has been handled and is whole. -/
theorem Passed.snoc (h : Passed env buffered msgs) (haccepts : env.Accepts (msgs.map Call.whole)
      (behind stale buffered msgs).next)
    (hwhole : msgs.flatten.length + (behind stale buffered msgs).next.header.size ≤
      buffered.length) :
    ∃ msg, msg.length = (behind stale buffered msgs).next.header.size ∧
      (behind stale buffered msgs).next = Call.whole msg ∧ Passed env buffered (msgs ++ [msg]) := by
  obtain ⟨c, hc⟩ : ∃ c, c = behind stale buffered msgs := ⟨_, rfl⟩
  obtain ⟨size, hdef⟩ : ∃ size, size = c.next.header.size := ⟨_, rfl⟩
  rw [← hc] at haccepts hwhole ⊢
  rw [← hdef] at hwhole ⊢
  obtain ⟨hsize, hhandled⟩ := haccepts
  rw [← hdef] at hsize
  have hdrop : c.unread = buffered.drop msgs.flatten.length := hc ▸ rfl
  have hunread : c.unread.length = buffered.length - msgs.flatten.length := by
    rw [hdrop, List.length_drop]
  have hle : size ≤ c.unread.length := by omega
  have hcopy : c.copy size = c.unread.take size := Conn.copy_eq_take hle
  have hlength : (c.copy size).length = size := by
    rw [hcopy, List.length_take, Nat.min_eq_left hle]
  have hheader : parseHeader (c.copy size) = parseHeader (c.copy 8) := by
    rw [← parseHeader_take (c.copy size), hcopy, List.take_take, Nat.min_eq_left hsize,
      Conn.copy_eq_take (by omega)]
  have hnext : c.next = Call.whole (c.copy size) := by
    rw [Call.whole, hheader, hdef]
    rfl
  refine ⟨c.copy size, hlength, hnext, ?_, ?_, ?_⟩
  · intro msg hmem
    rcases List.mem_append.mp hmem with hmem | hmem
    · exact h.sized msg hmem
    · obtain rfl := List.mem_singleton.mp hmem
      refine ⟨by omega, ?_⟩
      rw [hheader, hlength, hdef]
      rfl
  · rw [List.flatten_append, List.flatten_singleton, hcopy]
    obtain ⟨rest, hrest⟩ := h.front
    rw [hdrop, ← hrest, List.drop_left]
    exact (List.prefix_append_right_inj _).mpr (List.take_prefix _ _)
  · intro k hk
    rw [List.length_append, List.length_singleton] at hk
    by_cases hlt : k < msgs.length
    · rw [List.take_append_of_le_length hlt]
      exact h.handled k hlt
    · rw [List.take_of_length_le (by rw [List.length_append, List.length_singleton]; omega),
        List.map_append, List.map_singleton, ← hnext]
      exact hhandled

/-- A message behind others is the one that the loop finds there. -/
theorem Passed.next_eq {msg : List UInt8} (h : Passed env buffered (msgs ++ [msg]))
    (stale : Nat → UInt8) :
    (behind stale buffered msgs).next = Call.whole msg ∧
      env.Accepts (msgs.map Call.whole) (behind stale buffered msgs).next := by
  obtain ⟨hmin, hsize⟩ := h.sized msg (List.mem_append_right _ List.mem_cons_self)
  obtain ⟨rest, hrest⟩ := h.front
  let c := behind stale buffered msgs
  have hunread : c.unread = msg ++ rest := by
    rw [unread_behind, ← hrest, List.flatten_append, List.flatten_singleton, List.append_assoc,
      List.drop_left]
  have hcopy (n : Nat) (hn : n ≤ msg.length) : c.copy n = msg.take n := by
    rw [Conn.copy_eq_take (by rw [hunread, List.length_append]; omega), hunread,
      List.take_append_of_le_length hn]
  have hheader : parseHeader (c.copy 8) = parseHeader msg := by
    rw [hcopy 8 hmin, parseHeader_take]
  have hnext : c.next = Call.whole msg := by
    unfold Conn.next
    rw [hheader, hsize, hcopy _ (Nat.le_refl _), List.take_length]
    rfl
  refine ⟨hnext, ?_⟩
  have hlast := h.handled msgs.length (by rw [List.length_append, List.length_singleton]; omega)
  rw [List.take_of_length_le (by rw [List.length_append, List.length_singleton]),
    List.map_append, List.map_singleton] at hlast
  change env.Accepts _ c.next
  rw [hnext]
  exact ⟨hsize ▸ hmin, hlast⟩

/-- The messages at the front of a buffer can be found in one way only. -/
theorem Passed.comparable {msgs' : List (List UInt8)} (h : Passed env buffered msgs)
    (h' : Passed env buffered msgs') : msgs <+: msgs' ∨ msgs' <+: msgs := by
  have hsized := h.sized
  have hsized' := h'.sized
  have hfront := h.front
  have hfront' := h'.front
  clear h h'
  induction msgs generalizing msgs' buffered with
  | nil => exact .inl List.nil_prefix
  | cons msg rest ih =>
      cases msgs' with
      | nil => exact .inr List.nil_prefix
      | cons msg' rest' =>
          obtain ⟨hmin, hsize⟩ := hsized msg List.mem_cons_self
          obtain ⟨hmin', hsize'⟩ := hsized' msg' List.mem_cons_self
          obtain ⟨later, rfl⟩ := hfront
          simp only [List.flatten_cons, List.append_assoc] at hfront'
          have hmsg' : msg' <+: msg ++ (rest.flatten ++ later) :=
            (List.prefix_append _ _).trans hfront'
          -- the first eight bytes give the same size
          have htake : msg.take 8 = msg'.take 8 := by
            obtain ⟨more, hmore⟩ := hmsg'
            have hcut : (msg ++ (rest.flatten ++ later)).take 8 = msg.take 8 :=
              List.take_append_of_le_length hmin
            rw [← hcut, ← hmore, List.take_append_of_le_length hmin']
          have hlength : msg.length = msg'.length := by
            rw [← hsize, ← hsize', ← parseHeader_take msg, htake, parseHeader_take]
          have heq : msg = msg' := by
            have := List.prefix_of_prefix_length_le hmsg' (List.prefix_append msg _) hlength.ge
            exact (this.eq_of_length hlength.symm).symm
          subst heq
          rw [List.prefix_append_right_inj] at hfront'
          have hrest : rest <+: rest' ∨ rest' <+: rest :=
            ih (fun m hmem => hsized m (List.mem_cons_of_mem _ hmem))
              (fun m hmem => hsized' m (List.mem_cons_of_mem _ hmem))
              (List.prefix_append rest.flatten later) hfront'
          rw [List.cons_prefix_cons, List.cons_prefix_cons]
          exact hrest.imp (fun h => ⟨rfl, h⟩) (fun h => ⟨rfl, h⟩)

/-- Where a message is refused, no further one has been passed. -/
theorem Passed.of_refused {refused : List (List UInt8)} (h : Passed env buffered msgs)
    (hrefused : Passed env buffered refused)
    (hnot : ¬ env.Accepts (refused.map Call.whole) (behind stale buffered refused).next) :
    msgs <+: refused := by
  obtain hprefix | ⟨more, rfl⟩ := h.comparable hrefused
  · exact hprefix
  · cases more with
    | nil => rw [List.append_nil]
    | cons msg more =>
        have hpassed : Passed env buffered (refused ++ [msg]) :=
          { sized := fun m hmem => h.sized m (by simp at hmem ⊢; tauto)
            front := by
              refine List.IsPrefix.trans ⟨more.flatten, ?_⟩ h.front
              simp
            handled := by
              intro k hk
              have := h.handled k (by simp at hk ⊢; omega)
              rwa [List.append_cons, List.take_append_of_le_length (by simp at hk ⊢; omega)] at this }
        have hnext := hpassed.next_eq stale
        exact absurd hnext.2 hnot

/-! ### Where the loop is -/

/-- The loop has come past these messages. -/
def found (stale : Nat → UInt8) (buffered : List UInt8) (msgs : List (List UInt8)) : State where
  conn := behind stale buffered msgs
  pending := []
  calls := msgs.map Call.whole
  pc := .loop (cInt buffered.length - msgs.flatten.length)

inductive Position (env : Env) (stale : Nat → UInt8) (buffered : List UInt8) : State → Prop where
  | found {msgs : List (List UInt8)} : Passed env buffered msgs →
      (msgs.flatten.length : Int) ≤ cInt buffered.length →
      Position env stale buffered (found stale buffered msgs)
  | refused {msgs : List (List UInt8)} {s : State} : Passed env buffered msgs →
      (msgs.flatten.length : Int) + 8 ≤ cInt buffered.length →
      ¬ env.Accepts (msgs.map Call.whole) (behind stale buffered msgs).next →
      s.calls = msgs.map Call.whole ++ [(behind stale buffered msgs).next] → s.pc = .stopped →
      Position env stale buffered s
  | done {msgs : List (List UInt8)} {s : State} : Passed env buffered msgs →
      (msgs.flatten.length : Int) ≤ cInt buffered.length →
      cInt buffered.length < msgs.flatten.length + 8 → s.conn = behind stale buffered msgs →
      s.pending = [] → s.calls = msgs.map Call.whole → ¬ s.Looping → Position env stale buffered s

theorem entered_eq (stale : Nat → UInt8) (buffered : List UInt8) :
    entered stale buffered false = found stale buffered [] := by
  simp [entered, found, behind]

theorem sizeT_count {n : Nat} {len : Int} (h : (n : Int) ≤ len) (hlt : len < 2 ^ 31) :
    (8 ≤ sizeT (len - n) ↔ (n : Int) + 8 ≤ len) := by
  unfold sizeT
  omega

theorem step_found (h : (msgs.flatten.length : Int) ≤ cInt buffered.length) :
    step env (found stale buffered msgs) =
      if (msgs.flatten.length : Int) + 8 ≤ cInt buffered.length then
        some (handleNext env (found stale buffered msgs)
          (cInt buffered.length - msgs.flatten.length))
      else
        some { found stale buffered msgs with
          pc := if env.flushed (msgs.map Call.whole) then .ready else .stopped } := by
  have hcount := sizeT_count h (cInt_lt buffered.length)
  by_cases hheader : (msgs.flatten.length : Int) + 8 ≤ cInt buffered.length
  · rw [if_pos hheader]
    exact step_loop rfl (hcount.mpr hheader)
  · rw [if_neg hheader, step]
    exact if_neg (mt hcount.mp hheader)

theorem not_looping_flush {s : State} {b : Bool} :
    ¬ ({ s with pc := if b then .ready else .stopped } : State).Looping := by
  rintro ⟨len, hpc⟩
  cases b <;> cases hpc

/-- The body of the loop, when the message is refused and when it is whole. -/
theorem handleNext_refused {len : Int}
    (hnot : ¬ env.Accepts (msgs.map Call.whole) (behind stale buffered msgs).next) :
    (handleNext env (found stale buffered msgs) len).pc = .stopped :=
  if_neg hnot

theorem handleNext_accepted {msg : List UInt8}
    (haccepts : env.Accepts (msgs.map Call.whole) (behind stale buffered msgs).next)
    (hnext : (behind stale buffered msgs).next = Call.whole msg)
    (hlength : msg.length = (behind stale buffered msgs).next.header.size)
    (hle : ((msgs ++ [msg]).flatten.length : Int) ≤ cInt buffered.length) :
    handleNext env (found stale buffered msgs) (cInt buffered.length - msgs.flatten.length) =
      found stale buffered (msgs ++ [msg]) := by
  have hflatten : (msgs ++ [msg]).flatten.length = msgs.flatten.length + msg.length := by
    rw [List.flatten_append, List.length_append, List.flatten_singleton]
  have hlt := cInt_lt buffered.length
  have hcount : cInt (cInt buffered.length - msgs.flatten.length - msg.length) =
      cInt buffered.length - (msgs ++ [msg]).flatten.length := by
    rw [cInt_eq (by omega) (by omega)]
    omega
  have hpc : (handleNext env (found stale buffered msgs)
      (cInt buffered.length - msgs.flatten.length)).pc =
      .loop (cInt (cInt buffered.length - msgs.flatten.length -
        (behind stale buffered msgs).next.header.size)) := if_pos haccepts
  rw [← hlength, hcount] at hpc
  rw [State.mk.injEq]
  refine ⟨?_, rfl, ?_, hpc⟩
  · change (behind stale buffered msgs).consume (behind stale buffered msgs).next.header.size = _
    rw [← hlength, behind, Conn.consume, ← hflatten]
    rfl
  · change msgs.map Call.whole ++ [(behind stale buffered msgs).next] = (msgs ++ [msg]).map Call.whole
    rw [hnext, List.map_append, List.map_singleton]

theorem Position.step {s t : State} (h : Position env stale buffered s)
    (hwhole : ∀ msgs, Passed env buffered msgs →
      (msgs.flatten.length : Int) + 8 ≤ cInt buffered.length →
      env.Accepts (msgs.map Call.whole) (behind stale buffered msgs).next →
      ((msgs.flatten.length + (behind stale buffered msgs).next.header.size : Nat) : Int) ≤
        cInt buffered.length)
    (hnonneg : 0 ≤ cInt buffered.length) (hstep : step env s = some t) :
    Position env stale buffered t := by
  have hle := cInt_natCast_le hnonneg
  cases h with
  | @found msgs hpassed hcount =>
      rw [step_found hcount] at hstep
      split at hstep
      · next hheader =>
        cases hstep
        by_cases haccepts : env.Accepts (msgs.map Call.whole) (behind stale buffered msgs).next
        · have hsize := hwhole msgs hpassed hheader haccepts
          obtain ⟨msg, hlength, hnext, hpassed'⟩ := hpassed.snoc haccepts (by omega)
          have hflatten : (msgs ++ [msg]).flatten.length = msgs.flatten.length + msg.length := by
            rw [List.flatten_append, List.length_append, List.flatten_singleton]
          have hcount' : ((msgs ++ [msg]).flatten.length : Int) ≤ cInt buffered.length := by omega
          rw [handleNext_accepted haccepts hnext hlength hcount']
          exact .found hpassed' hcount'
        · exact .refused hpassed hheader haccepts rfl (handleNext_refused haccepts)
      · next hshort =>
        cases hstep
        exact .done hpassed hcount (by omega) rfl rfl rfl not_looping_flush
  | refused _ _ _ _ hpc =>
      rw [Proxy.step, hpc] at hstep
      cases hstep
  | done _ _ _ _ hpending _ hnot =>
      unfold Proxy.step at hstep
      rw [hpending] at hstep
      split at hstep
      · cases hstep
      · next len hpc => exact absurd ⟨len, hpc⟩ hnot
      · cases hstep

/-! ### Enough -/

theorem CountsRight.position (h : CountsRight env stale buffered) {s : State}
    (hs : (readLoop env stale buffered false).Reachable s) : Position env stale buffered s := by
  refine hs.invariant (Position env stale buffered) ?_ ?_
  · rintro _ rfl
    rw [entered_eq]
    exact .found (.nil env buffered) h.nonneg
  · intro s t hpos hstep
    exact hpos.step h.whole h.nonneg hstep

theorem length_unread_behind (stale : Nat → UInt8) (buffered : List UInt8)
    (msgs : List (List UInt8)) :
    (behind stale buffered msgs).unread.length = buffered.length - msgs.flatten.length :=
  List.length_drop

theorem Position.inBounds {s : State} (hpos : Position env stale buffered s)
    (h : CountsRight env stale buffered) : InBounds env buffered s := by
  have hle := cInt_natCast_le h.nonneg
  cases hpos with
  | @found msgs hpassed hcount =>
      have hmul := hpassed.mul_le
      refine ⟨?_, ?_, ?_, ?_⟩
      · intro len hloop hheader
        obtain rfl : cInt buffered.length - msgs.flatten.length = len := Pc.loop.inj hloop
        rw [sizeT_count hcount (cInt_lt _)] at hheader
        change 8 ≤ (behind stale buffered msgs).unread.length
        rw [length_unread_behind]
        omega
      · intro len hloop
        obtain rfl : cInt buffered.length - msgs.flatten.length = len := Pc.loop.inj hloop
        omega
      · change (msgs.map Call.whole).length ≤ _
        rw [List.length_map]
        omega
      · exact fun hnot => absurd ⟨_, rfl⟩ hnot
  | @refused msgs _ hpassed hheader hnot hcalls hpc =>
      have hmul := hpassed.mul_le
      refine ⟨?_, ?_, ?_, fun _ => .inl ⟨_, _, hcalls, hnot⟩⟩
      · intro len hloop
        rw [hpc] at hloop
        cases hloop
      · intro len hloop
        rw [hpc] at hloop
        cases hloop
      · rw [hcalls, List.length_append, List.length_map, List.length_singleton]
        omega
  | @done msgs _ hpassed hcount hend hconn hpending hcalls hnot =>
      have hmul := hpassed.mul_le
      refine ⟨fun len hpc => absurd ⟨len, hpc⟩ hnot, fun len hpc => absurd ⟨len, hpc⟩ hnot, ?_, ?_⟩
      · rw [hcalls, List.length_map]
        omega
      · intro _
        right
        rw [hconn, length_unread_behind]
        obtain hexact | ⟨refused, hrefused, hheader, hrefuses⟩ := h.exact
        · omega
        · -- the loop would have ended at that message
          obtain ⟨more, rfl⟩ := hpassed.of_refused hrefused hrefuses
          rw [List.flatten_append, List.length_append] at hheader
          omega

/-- The rounds that are left, and the end. -/
def State.rounds (buffered : List UInt8) (s : State) : Nat :=
  match s.pc with
  | .loop _ => buffered.length + 1 - s.calls.length
  | _ => 0

theorem rounds_eq_zero {s : State} (h : ¬ s.Looping) : s.rounds buffered = 0 := by
  unfold State.rounds
  split
  · next len hpc => exact absurd ⟨len, hpc⟩ h
  · rfl

theorem Position.progress {s : State} (hpos : Position env stale buffered s)
    (h : CountsRight env stale buffered) (hloop : s.Looping) :
    ∃ t, Proxy.step env s = some t ∧ Position env stale buffered t ∧
      t.rounds buffered < s.rounds buffered := by
  obtain ⟨len, hpc⟩ := hloop
  obtain ⟨t, ht⟩ : ∃ t, Proxy.step env s = some t := by
    unfold Proxy.step
    rw [hpc]
    exact ⟨_, (apply_ite some _ _ _).symm⟩
  have hpos' := hpos.step h.whole h.nonneg ht
  refine ⟨t, ht, hpos', ?_⟩
  have hrounds : s.calls.length ≤ buffered.length / 8 := (hpos.inBounds h).rounds
  have hrank : s.rounds buffered = buffered.length + 1 - s.calls.length := by
    rw [State.rounds, hpc]
  by_cases hloop' : t.Looping
  · obtain ⟨len', hpc'⟩ := hloop'
    have hrank' : t.rounds buffered = buffered.length + 1 - t.calls.length := by
      rw [State.rounds, hpc']
    have hmore : t.calls.length = s.calls.length + 1 := by
      simp only [Proxy.step, hpc] at ht
      split at ht
      · cases ht
        exact List.length_append
      · cases ht
        exact absurd ⟨len', hpc'⟩ not_looping_flush
    omega
  · rw [rounds_eq_zero hloop']
    omega

theorem loopEnds_of_countsRight (h : CountsRight env stale buffered) :
    LoopEnds env stale buffered false := by
  refine ⟨fun s hs => (h.position hs).inBounds h, ?_⟩
  have hstart : (readLoop env stale buffered false).Reachable (entered stale buffered false) :=
    .start rfl
  obtain ⟨s, hs, -, hend⟩ := hstart.ends (Position env stale buffered) (fun s => ¬ s.Looping)
    (State.rounds buffered) (fun s hpos hloop => by
      obtain ⟨t, ht, hpos', hlt⟩ := hpos.progress h (Classical.not_not.mp hloop)
      exact ⟨t, ht, hpos', hlt⟩) (h.position hstart)
  exact ⟨s, hs, hend⟩

/-! ### Necessary -/

theorem size_lt (buf : List UInt8) : (parseHeader buf).size < 2 ^ 16 := by
  have hlength : ((buf.drop 4).take 4).length ≤ 4 := List.length_take_le _ _
  have hlt : ofLittle ((buf.drop 4).take 4) < 256 ^ 4 :=
    Nat.lt_of_lt_of_le (ofLittle_lt _) (Nat.pow_le_pow_right (by decide) hlength)
  simp only [parseHeader]
  omega

theorem Passed.of_snoc {msg : List UInt8} (h : Passed env buffered (msgs ++ [msg])) :
    Passed env buffered msgs where
  sized := fun m hmem => h.sized m (List.mem_append_left _ hmem)
  front := by
    have hfront := h.front
    rw [List.flatten_append] at hfront
    exact (List.prefix_append _ _).trans hfront
  handled := by
    intro k hk
    have hhandled := h.handled k (by rw [List.length_append]; omega)
    rwa [List.take_append_of_le_length hk] at hhandled

/-- Every message at the front within the count is come past. -/
theorem Passed.reachable (h : Passed env buffered msgs)
    (hcount : (msgs.flatten.length : Int) ≤ cInt buffered.length) :
    (readLoop env stale buffered false).Reachable (found stale buffered msgs) := by
  induction msgs using List.reverseRecOn with
  | nil =>
      rw [← entered_eq]
      exact .start rfl
  | append_singleton msgs msg ih =>
      have hmin := (h.sized msg (List.mem_append_right _ List.mem_cons_self)).1
      have hflatten : (msgs ++ [msg]).flatten.length = msgs.flatten.length + msg.length := by
        rw [List.flatten_append, List.length_append, List.flatten_singleton]
      obtain ⟨hnext, haccepts⟩ := h.next_eq stale
      have hlength : msg.length = (behind stale buffered msgs).next.header.size := by
        rw [hnext]
        exact (h.sized msg (List.mem_append_right _ List.mem_cons_self)).2.symm
      refine .next (ih h.of_snoc (by omega)) ?_
      change step env (found stale buffered msgs) = _
      rw [step_found (by omega), if_pos (by omega),
        handleNext_accepted haccepts hnext hlength hcount]

/-- A loop that stays within bounds counts right. -/
theorem countsRight_of_loopEnds (h : LoopEnds env stale buffered false) :
    CountsRight env stale buffered := by
  obtain ⟨hbounds, last, hlast, hend⟩ := h
  have hnonneg : 0 ≤ cInt buffered.length :=
    (hbounds _ (.start rfl)).counter _ (by rw [entered, if_neg (by decide)])
  have hwhole : ∀ msgs, Passed env buffered msgs →
      (msgs.flatten.length : Int) + 8 ≤ cInt buffered.length →
      env.Accepts (msgs.map Call.whole) (behind stale buffered msgs).next →
      ((msgs.flatten.length + (behind stale buffered msgs).next.header.size : Nat) : Int) ≤
        cInt buffered.length := by
    intro msgs hpassed hheader haccepts
    have hlt := cInt_lt buffered.length
    have hsize : (behind stale buffered msgs).next.header.size < 2 ^ 16 := size_lt _
    have hstep : step env (found stale buffered msgs) =
        some (handleNext env (found stale buffered msgs)
          (cInt buffered.length - msgs.flatten.length)) := by
      rw [step_found (by omega), if_pos hheader]
    have hpc : (handleNext env (found stale buffered msgs)
        (cInt buffered.length - msgs.flatten.length)).pc =
        .loop (cInt (cInt buffered.length - msgs.flatten.length -
          (behind stale buffered msgs).next.header.size)) := if_pos haccepts
    have hcounter := (hbounds _ (.next (hpassed.reachable (by omega)) hstep)).counter _ hpc
    rw [cInt_eq (by omega) (by omega)] at hcounter
    omega
  refine ⟨hnonneg, hwhole, ?_⟩
  have hpos : Position env stale buffered last := by
    refine hlast.invariant (Position env stale buffered) ?_ ?_
    · rintro _ rfl
      rw [entered_eq]
      exact .found (.nil env buffered) hnonneg
    · intro s t hpos hstep
      exact hpos.step hwhole hnonneg hstep
  cases hpos with
  | found _ _ => exact absurd ⟨_, rfl⟩ hend
  | refused hpassed hheader hnot _ _ => exact .inr ⟨_, hpassed, hheader, hnot⟩
  | @done msgs _ hpassed hcount hlt hconn hpending hcalls _ =>
      obtain ⟨calls, call, hlastCall, hnot⟩ | hshort := (hbounds last hlast).ended hend
      · -- the last call is that of a message that was handled
        rw [hcalls] at hlastCall
        induction msgs using List.reverseRecOn with
        | nil => simp at hlastCall
        | append_singleton msgs msg _ =>
            obtain ⟨hnext, haccepts⟩ := hpassed.next_eq stale
            rw [List.map_append, List.map_singleton, ← hnext] at hlastCall
            obtain ⟨rfl, rfl⟩ := List.append_singleton_inj.mp hlastCall
            exact absurd haccepts hnot
      · rw [hconn, length_unread_behind] at hshort
        exact .inl (cInt_natCast_eq hnonneg (by omega))

/-- The loop is entered with the counter at -1. -/
theorem not_loopEnds_of_failed : ¬ LoopEnds env stale buffered true := by
  intro h
  have hcounter := (h.1 _ (.start rfl)).counter (-1) rfl
  exact absurd hcounter (by decide)

/-- The loop stays within what is buffered and ends, if and only if the read has not failed, the
bytes are counted right, and so is every message that is handled. -/
theorem loopEnds_iff_countsRight (env : Env) (stale : Nat → UInt8) (buffered : List UInt8)
    (failed : Bool) :
    LoopEnds env stale buffered failed ↔ failed = false ∧ CountsRight env stale buffered := by
  cases failed with
  | false => exact ⟨fun h => ⟨rfl, countsRight_of_loopEnds h⟩, fun h => loopEnds_of_countsRight h.2⟩
  | true => exact ⟨fun h => absurd h not_loopEnds_of_failed, fun h => Bool.noConfusion h.1⟩

/-- A read that fails, and a message of twelve bytes of which eight are buffered. -/
theorem failed_read_not_loopEnds :
    ¬ LoopEnds ⟨fun _ => true, fun _ => true⟩ (fun _ => 0) [] true ∧
      ¬ LoopEnds ⟨fun _ => true, fun _ => true⟩ (fun _ => 0) (syncMessage.take 8) false := by
  refine ⟨not_loopEnds_of_failed, fun h => ?_⟩
  have hle := (countsRight_of_loopEnds h).whole [] (.nil _ _) (by decide) ⟨by decide, rfl⟩
  exact absurd hle (by decide)

end Stratus.Capture.Proxy
