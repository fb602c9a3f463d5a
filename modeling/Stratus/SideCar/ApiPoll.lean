import Stratus.Lib.CString
import Stratus.Lib.Transition

/-! `api_poll` on the chunks that `curl_ws_recv` returns.  A message is one fragment or several,
and a fragment comes in one chunk or several; control frames stand between them. -/
namespace Stratus.SideCar

open Stratus.Lib

namespace ApiPoll

/-- The size of `buf`, all of which `curl_ws_recv` may fill. -/
def bufSize : Nat := 4096

/-- What `flags` says of the frame. -/
inductive FrameKind where
  | text
  | binary
  | close
  | ping
  | pong
deriving DecidableEq

def FrameKind.isData : FrameKind → Bool
  | .text | .binary => true
  | .close | .ping | .pong => false

/-- A chunk: `cont` says that another fragment of the message follows, and `bytesleft` how much
of this one is missing. -/
structure Received where
  bytes : List UInt8
  kind : FrameKind
  cont : Bool
  bytesleft : Nat
  length_le : bytes.length ≤ bufSize

/-- What a call meets: `poll` fails or has no data, `curl_ws_recv` fails, or it returns a chunk.
The times are those that `time` returns, the results those of `api_connect` and `api_recv`. -/
inductive Polled where
  | failed
  | idle
  | recvFailed (now stamp : Int) (connected : Int)
  | received (chunk : Received) (handled : Int)

/-- The members of `struct api_client` that are read: whether `curl` is `NULL`, and
`last_reconnect`. -/
structure Client where
  curl : Bool
  lastReconnect : Int

def reconnectLimit : Int := 60

/-- What a call does: the places of `buf` that are written, the string that `api_recv` is called
with, and the result. -/
structure Poll where
  client : Client
  stores : List Nat
  handed : Option (List UInt8)
  returned : Int

def apiPoll (client : Client) (polled : Polled) : Poll :=
  if client.curl then
    match polled with
    | .failed => ⟨client, [], none, -1⟩
    | .idle => ⟨client, [], none, 0⟩
    | .recvFailed now stamp connected =>
        if reconnectLimit < now - client.lastReconnect then
          ⟨{ client with lastReconnect := stamp }, [], none, connected⟩
        else ⟨client, [], none, -1⟩
    | .received chunk handled =>
        if chunk.bytesleft ≠ 0 then ⟨client, List.range chunk.bytes.length, none, -1⟩
        else
          ⟨client, List.range chunk.bytes.length ++ [chunk.bytes.length],
            some (cString (chunk.bytes ++ [0])), handled⟩
  else ⟨client, [], none, 0⟩

/-! ### The messages on the wire -/

/-- The chunk is the last of its message. -/
def Received.isLast (chunk : Received) : Bool :=
  chunk.kind.isData && chunk.bytesleft = 0 && !chunk.cont

/-- The message that a chunk completes, when `sofar` has come of it before. -/
def Received.completes (chunk : Received) (sofar : List UInt8) : Option (List UInt8) :=
  if chunk.isLast then some (sofar ++ chunk.bytes) else none

/-- What has come of the message that is under way after a chunk. -/
def Received.sofar (chunk : Received) (sofar : List UInt8) : List UInt8 :=
  if chunk.isLast then [] else if chunk.kind.isData then sofar ++ chunk.bytes else sofar

def Polled.completes (polled : Polled) (sofar : List UInt8) : Option (List UInt8) :=
  match polled with
  | .received chunk _ => chunk.completes sofar
  | .failed | .idle | .recvFailed .. => none

/-- Another connection starts with another message. -/
def Polled.sofar (polled : Polled) (sofar : List UInt8) : List UInt8 :=
  match polled with
  | .received chunk _ => chunk.sofar sofar
  | .recvFailed .. => []
  | .failed | .idle => sofar

/-- The calls so far: what was written, and each string that was handed on with the message that
was complete by then, if any.  `sidecar_main` ends at the first result below zero. -/
structure State where
  client : Client
  sofar : List UInt8
  stores : List Nat
  handed : List (List UInt8 × Option (List UInt8))
  ended : Bool

def State.next (s : State) (polled : Polled) : State :=
  let poll := apiPoll s.client polled
  { client := poll.client
    sofar := polled.sofar s.sofar
    stores := s.stores ++ poll.stores
    handed := s.handed ++ (poll.handed.map fun text => (text, polled.completes s.sofar)).toList
    ended := poll.returned < 0 }

def State.start (client : Client) : State := ⟨client, [], [], [], false⟩

/-- Every order of results; each is that of one call. -/
def system : Labelled State Polled where
  init s := ∃ client, s = .start client
  step s polled t := s.ended = false ∧ t = s.next polled

/-- Nothing is written past the buffer, and every string is a whole message. -/
structure State.Delivered (s : State) : Prop where
  inside : ∀ place ∈ s.stores, place < bufSize
  whole : ∀ handed ∈ s.handed, handed.2 = some handed.1

/-- A chunk that ends a fragment leaves room for the terminator, is the only fragment of a
message, and holds no zero. -/
def Polled.Fits : Polled → Prop
  | .received chunk _ => chunk.bytesleft = 0 →
      chunk.bytes.length < bufSize ∧ chunk.kind.isData ∧ chunk.cont = false ∧ 0 ∉ chunk.bytes
  | .failed | .idle | .recvFailed .. => True

/-! ### One call -/

/-- What a call writes and hands on is right, when a message starts with it. -/
def Good (client : Client) (polled : Polled) : Prop :=
  (∀ place ∈ (apiPoll client polled).stores, place < bufSize) ∧
    ∀ text, (apiPoll client polled).handed = some text → polled.completes [] = some text

theorem apiPoll_received {client : Client} (hcurl : client.curl = true) (chunk : Received) (handled : Int) :
    apiPoll client (.received chunk handled) =
      if chunk.bytesleft ≠ 0 then ⟨client, List.range chunk.bytes.length, none, -1⟩
      else
        ⟨client, List.range chunk.bytes.length ++ [chunk.bytes.length],
          some (cString (chunk.bytes ++ [0])), handled⟩ := by
  rw [apiPoll, if_pos hcurl]

/-- The string of a chunk is the message that it completes. -/
theorem completes_iff {chunk : Received} (hleft : chunk.bytesleft = 0) :
    chunk.completes [] = some (cString (chunk.bytes ++ [0])) ↔
      chunk.kind.isData ∧ chunk.cont = false ∧ 0 ∉ chunk.bytes := by
  have hlast : chunk.isLast = true ↔ chunk.kind.isData = true ∧ chunk.cont = false := by
    simp [Received.isLast, hleft]
  rw [Received.completes, cString_concat_zero, List.nil_append]
  by_cases h : chunk.isLast = true
  · obtain ⟨hdata, hcont⟩ := hlast.mp h
    rw [if_pos h, Option.some_inj, eq_comm, cString_eq_self_iff]
    exact ⟨fun hzero => ⟨hdata, hcont, hzero⟩, fun hall => hall.2.2⟩
  · rw [if_neg h]
    exact iff_of_false nofun fun hall => h (hlast.mpr ⟨hall.1, hall.2.1⟩)

theorem good_received_iff {client : Client} (hcurl : client.curl = true) (chunk : Received)
    (handled : Int) : Good client (.received chunk handled) ↔ (Polled.received chunk handled).Fits := by
  rw [Good, apiPoll_received hcurl]
  by_cases hleft : chunk.bytesleft = 0
  · rw [if_neg (not_not.mpr hleft)]
    have hinside : (∀ place ∈ List.range chunk.bytes.length ++ [chunk.bytes.length], place < bufSize) ↔
        chunk.bytes.length < bufSize := by
      rw [← List.range_succ]
      constructor
      · exact fun h => h _ List.self_mem_range_succ
      · intro h place hplace
        exact Nat.lt_of_le_of_lt (Nat.le_of_lt_succ (List.mem_range.mp hplace)) h
    simp only [hinside, Option.some_inj, forall_eq', Polled.completes, completes_iff hleft, Polled.Fits,
      hleft, forall_const]
  · rw [if_pos hleft]
    refine iff_of_true ⟨fun place hplace => ?_, nofun⟩ fun heq => absurd heq hleft
    exact Nat.lt_of_lt_of_le (List.mem_range.mp hplace) chunk.length_le

/-- Without a chunk nothing is written. -/
theorem good_iff {client : Client} (hcurl : client.curl = true) (polled : Polled) :
    Good client polled ↔ polled.Fits := by
  cases polled with
  | received chunk handled => exact good_received_iff hcurl chunk handled
  | failed => simp [Good, apiPoll, hcurl, Polled.Fits]
  | idle => simp [Good, apiPoll, hcurl, Polled.Fits]
  | recvFailed now stamp connected =>
      refine iff_of_true ?_ trivial
      rw [Good, apiPoll, if_pos hcurl]
      split <;> exact ⟨nofun, nofun⟩

/-- Without a server to connect to every call does nothing. -/
theorem apiPoll_of_curl {client : Client} (hcurl : client.curl = false) (polled : Polled) :
    apiPoll client polled = ⟨client, [], none, 0⟩ := by
  simp [apiPoll, hcurl]

theorem good_of_curl {client : Client} (hcurl : client.curl = false) (polled : Polled) :
    Good client polled := by
  simp [Good, apiPoll_of_curl hcurl]

theorem curl_apiPoll (client : Client) (polled : Polled) :
    (apiPoll client polled).client.curl = client.curl := by
  cases hcurl : client.curl with
  | false => rw [apiPoll_of_curl hcurl, hcurl]
  | true =>
      cases polled with
      | received chunk handled =>
          rw [apiPoll_received hcurl]
          split <;> exact hcurl
      | failed => simp [apiPoll, hcurl]
      | idle => simp [apiPoll, hcurl]
      | recvFailed now stamp connected =>
          rw [apiPoll, if_pos hcurl]
          split <;> exact hcurl

/-- After a call that fits, and that does not end the loop, a message starts. -/
theorem sofar_of_fits {client : Client} {polled : Polled} (hfits : polled.Fits)
    (hcurl : client.curl = true) (hrun : ¬ (apiPoll client polled).returned < 0) : polled.sofar [] = [] := by
  cases polled with
  | received chunk handled =>
      have hleft : chunk.bytesleft = 0 := by
        by_contra hleft
        rw [apiPoll_received hcurl, if_pos hleft] at hrun
        exact hrun (by decide : (-1 : Int) < 0)
      obtain ⟨-, hdata, hcont, -⟩ := hfits hleft
      have hlast : chunk.isLast = true := by simp [Received.isLast, hleft, hdata, hcont]
      exact if_pos hlast
  | failed => rfl
  | idle => rfl
  | recvFailed now stamp connected => rfl

/-! ### Runs -/

/-- What a run keeps: it has delivered whole messages exactly if every chunk so far fits, and then
a message starts with the next one. -/
structure Kept (trace : List Polled) (s : State) : Prop where
  delivered : s.Delivered ↔ (s.client.curl = true → ∀ polled ∈ trace, polled.Fits)
  fresh : s.client.curl = true → (∀ polled ∈ trace, polled.Fits) → s.ended = false → s.sofar = []

theorem delivered_next_iff {s : State} (polled : Polled)
    (hfresh : s.client.curl = true → s.sofar = []) (hs : s.Delivered) :
    (s.next polled).Delivered ↔ Good s.client polled := by
  have hcompletes : ∀ text, (apiPoll s.client polled).handed = some text →
      polled.completes s.sofar = polled.completes [] := by
    intro text htext
    cases hcurl : s.client.curl with
    | true => rw [hfresh hcurl]
    | false =>
        rw [apiPoll_of_curl hcurl] at htext
        cases htext
  constructor
  · intro h
    refine ⟨fun place hplace => h.inside place (List.mem_append_right _ hplace), fun text htext => ?_⟩
    have hwhole := h.whole (text, polled.completes s.sofar)
      (List.mem_append_right _ (by rw [htext]; exact List.mem_singleton.mpr rfl))
    rwa [hcompletes text htext] at hwhole
  · intro h
    constructor
    · intro place hplace
      exact (List.mem_append.mp hplace).elim (hs.inside place) (h.1 place)
    · intro handed hhanded
      rcases List.mem_append.mp hhanded with hmem | hmem
      · exact hs.whole handed hmem
      · obtain ⟨text, htext, rfl⟩ := Option.map_eq_some_iff.mp (Option.mem_toList.mp hmem)
        rw [hcompletes text htext]
        exact h.2 text htext

/-- What is wrong once stays so. -/
theorem State.Delivered.of_next {s : State} {polled : Polled} (h : (s.next polled).Delivered) :
    s.Delivered where
  inside place hplace := h.inside place (List.mem_append_left _ hplace)
  whole handed hmem := h.whole handed (List.mem_append_left _ hmem)

theorem kept_start (client : Client) : Kept [] (.start client) where
  delivered := iff_of_true ⟨nofun, nofun⟩ fun _ => nofun
  fresh _ _ _ := rfl

theorem kept_next {trace : List Polled} {s : State} (h : Kept trace s) (hrun : s.ended = false)
    (polled : Polled) : Kept (trace ++ [polled]) (s.next polled) := by
  have hcurl : (s.next polled).client.curl = s.client.curl := curl_apiPoll s.client polled
  constructor
  · rw [hcurl]
    by_cases hs : s.Delivered
    · have htrace := h.delivered.mp hs
      rw [delivered_next_iff polled (fun hcurl => h.fresh hcurl (htrace hcurl) hrun) hs]
      cases hcurl : s.client.curl with
      | true =>
          rw [good_iff hcurl]
          simp only [List.forall_mem_append, List.forall_mem_singleton, forall_const]
          exact (and_iff_right (htrace hcurl)).symm
      | false => exact iff_of_true (good_of_curl hcurl polled) nofun
    · refine iff_of_false (fun hnext => hs hnext.of_next) fun hall => hs (h.delivered.mpr ?_)
      exact fun hcurl polled hmem => hall hcurl polled (List.mem_append_left _ hmem)
  · intro hnext hall hrunning
    rw [hcurl] at hnext
    have hsofar := h.fresh hnext (fun polled hmem => hall polled (List.mem_append_left _ hmem)) hrun
    have hfits := hall polled (List.mem_append_right _ (List.mem_singleton.mpr rfl))
    have hpositive : ¬ (apiPoll s.client polled).returned < 0 := by
      simpa [State.next] using hrunning
    exact (congrArg polled.sofar hsofar).trans (sofar_of_fits hfits hnext hpositive)

/-- A run delivers whole messages, and writes inside the buffer, exactly if all its chunks fit. -/
theorem delivered_iff {trace : List Polled} {s : State} (hs : system.Run trace s) :
    s.Delivered ↔ (s.client.curl = true → ∀ polled ∈ trace, polled.Fits) := by
  refine (hs.invariant Kept ?_ ?_).delivered
  · rintro s ⟨client, rfl⟩
    exact kept_start client
  · rintro trace s polled t hkept ⟨hrun, rfl⟩
    exact kept_next hkept hrun polled

/-- The text of a message in one frame, or of one fragment of it. -/
def textChunk (text : String) (cont : Bool) (h : (utf8 text).length ≤ bufSize) : Received where
  bytes := utf8 text
  kind := .text
  cont := cont
  bytesleft := 0
  length_le := h

def online : Client := ⟨true, 0⟩

theorem run_one (polled : Polled) : system.Run [polled] ((State.start online).next polled) :=
  have hstart : system.Run [] (.start online) := .start ⟨online, rfl⟩
  hstart.next ⟨rfl, rfl⟩

def wholeText : Polled := .received (textChunk "\x7b\"type\":\"heartbeat\"\x7d" false (by decide)) 0

theorem wholeText_delivered : ((State.start online).next wholeText).Delivered :=
  (delivered_iff (run_one wholeText)).mpr fun _ polled hmem => by
    obtain rfl := List.mem_singleton.mp hmem
    exact fun _ => by decide

/-- The first of two fragments. -/
def fragment : Polled := .received (textChunk "\x7b\"type\":\"stop_" true (by decide)) 0

/-- It is handed on as if it were the message. -/
theorem fragment_not_delivered : ∃ s, system.Run [fragment] s ∧ ¬ s.Delivered :=
  ⟨_, run_one fragment, fun h => absurd (h.whole _ (List.mem_singleton.mpr rfl)) (by decide)⟩

end ApiPoll

end Stratus.SideCar
