import Stratus.Lib.Frames
import Stratus.Lib.Transition
import Stratus.Lib.Word

/-! `proxy_handle_data`: how the proxy cuts the bytes of one peer into Wayland
messages.  The input buffer of the connection is everything received so far and the
number of bytes consumed; copying past its end reads whatever the memory holds. -/
namespace Stratus.Capture.Proxy

open Stratus.Lib

/-- The input side of a `struct wl_connection`. -/
structure Conn where
  received : List UInt8
  tail : Nat
  stale : Nat → UInt8

namespace Conn

def unread (c : Conn) : List UInt8 := c.received.drop c.tail

/-- `wl_connection_read` when `chunk` has arrived: the number of unread bytes. -/
def read (c : Conn) (chunk : List UInt8) : Conn × Int :=
  ({ c with received := c.received ++ chunk },
    cInt (((c.received.length + chunk.length : Nat) : Int) - c.tail))

/-- `wl_connection_copy`. -/
def copy (c : Conn) (size : Nat) : List UInt8 :=
  (List.range size).map fun i => c.received.getD (c.tail + i) (c.stale (c.tail + i))

/-- `wl_connection_consume`. -/
def consume (c : Conn) (size : Nat) : Conn := { c with tail := c.tail + size }

end Conn

/-- The two words at the front of a message. -/
structure Header where
  id : Nat
  size : Nat
  opcode : Nat
deriving DecidableEq

def parseHeader (buf : List UInt8) : Header where
  id := ofLittle (buf.take 4)
  size := ofLittle ((buf.drop 4).take 4) / 2 ^ 16
  opcode := ofLittle ((buf.drop 4).take 4) % 2 ^ 16

/-- The arguments of `proxy_handle_message` and the bytes that
`wl_connection_demarshal` copies for them. -/
structure Call where
  header : Header
  bytes : List UInt8
deriving DecidableEq

/-- What happens outside the loop: whether `proxy_handle_message` returns 0 on the
last of the calls made so far, and whether `wl_connection_flush` succeeds. -/
structure Env where
  handled : List Call → Bool
  flushed : List Call → Bool

/-- Between two calls of `proxy_handle_data`, in its loop, or after it failed. -/
inductive Pc where
  | ready
  | loop (len : Int)
  | stopped
deriving DecidableEq

/-- `pending` is what the reads to come will find. -/
structure State where
  conn : Conn
  pending : List (List UInt8)
  calls : List Call
  pc : Pc

def start (stale : Nat → UInt8) (reads : List (List UInt8)) : State where
  conn := { received := [], tail := 0, stale := stale }
  pending := reads
  calls := []
  pc := .ready

/-- The body of the loop.  A size below 8 makes `wl_connection_demarshal` fail. -/
def handleNext (env : Env) (s : State) (len : Int) : State :=
  let header := parseHeader (s.conn.copy 8)
  let calls := s.calls ++ [⟨header, s.conn.copy header.size⟩]
  { s with
    conn := s.conn.consume header.size
    calls := calls
    pc := if 8 ≤ header.size ∧ env.handled calls then .loop (cInt (len - header.size))
      else .stopped }

/-- `len >= 2 * sizeof(uint32_t)` compares as `size_t`. -/
def step (env : Env) (s : State) : Option State :=
  match s.pc with
  | .ready =>
      match s.pending with
      | [] => none
      | chunk :: rest =>
          let (conn, len) := s.conn.read chunk
          some { s with conn := conn, pending := rest, pc := .loop len }
  | .loop len =>
      if 8 ≤ sizeT len then some (handleNext env s len)
      else some { s with pc := if env.flushed s.calls then .ready else .stopped }
  | .stopped => none

def system (env : Env) (stale : Nat → UInt8) (reads : List (List UInt8)) : System State where
  init s := s = start stale reads
  step s t := step env s = some t

/-! ## Framing -/

/-- The size field is the byte length, as libwayland's limits allow it. -/
structure WellFormed (msg : List UInt8) : Prop where
  size_eq : (parseHeader msg).size = msg.length
  min : 8 ≤ msg.length
  max : msg.length ≤ 4096
  aligned : 4 ∣ msg.length

def Call.whole (msg : List UInt8) : Call := ⟨parseHeader msg, msg⟩

/-- The messages handed on so far are the first ones of the peer, whole; all their
bytes had arrived; and after each call of `proxy_handle_data` what is left unread is
the beginning of the next message. -/
structure Framed (env : Env) (msgs : List (List UInt8)) (s : State) : Prop where
  handed : s.calls = (msgs.take s.calls.length).map Call.whole
  buffered : (s.calls.map Call.bytes).flatten.length ≤ s.conn.received.length
  remainder : s.pc = .ready → s.conn.unread = [] ∨
    ∃ msg, msgs[s.calls.length]? = some msg ∧ s.conn.unread <+: msg ∧ s.conn.unread ≠ msg
  stopped : s.pc = .stopped → env.handled s.calls = false ∨ env.flushed s.calls = false

def State.Ended (s : State) : Prop := s.pc = .stopped ∨ (s.pc = .ready ∧ s.pending = [])

/-- Framing over a whole connection: it holds in every state, and every read is dealt
with unless a message is refused or the flush fails. -/
def Framing (msgs : List (List UInt8)) (stale : Nat → UInt8) (reads : List (List UInt8)) : Prop :=
  ∀ env, (∀ s, (system env stale reads).Reachable s → Framed env msgs s) ∧
    ∃ s, (system env stale reads).Reachable s ∧ s.Ended

end Stratus.Capture.Proxy
