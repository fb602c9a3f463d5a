import Stratus.SideCar.Session

/-! `SideCar.c`: the daemon on a node, which has at most one session.  The parts of the main
loop are functions; which of them comes next, and whether `session_start` and `session_poll`
find something wrong, is left open. -/
namespace Stratus.SideCar

open Stratus.Lib

/-- A pointer to an id: the array of the active session, or a string of a parsed message. -/
inductive IdPointer where
  | member
  | parsed (text : List UInt8)
deriving DecidableEq

/-- What is sent to the backend. -/
inductive Sent where
  | heartbeat (sessions : List (List UInt8))
  | startConfirmed (sessionId : List UInt8)
  | stopSession (sessionId : List UInt8)
  | sessionError (sessionId : List UInt8) (description : String)
deriving DecidableEq

/-- How a handler ends: an assertion fails, or it returns 0 or -1. -/
inductive Result where
  | aborted
  | returned (ok : Bool) (activeSession : Option Session) (sent : List Sent)

def sidecarHeartbeat (activeSession : Option Session) : Sent :=
  .heartbeat (activeSession.toList.map fun session => cString session.id)

/-- `started` tells whether `session_start` succeeds. -/
def sidecarOnStartSession (activeSession : Option Session) (data : StartSession) (started : Bool) :
    Result :=
  if activeSession.isSome then .aborted
  else if started then
    .returned true (some (sessionOf data)) [.startConfirmed data.sessionId]
  else .returned false none [.sessionError data.sessionId "Failed to start session"]

/-- The assertion compares pointers. -/
def sidecarOnStopSession (activeSession : Option Session) (sessionId : IdPointer) : Result :=
  if activeSession.isNone then .aborted
  else if sessionId = .member then .returned true none [sidecarHeartbeat none]
  else .aborted

inductive Status where
  | running
  | exited
  | aborted
deriving DecidableEq

structure Daemon where
  status : Status
  activeSession : Option Session

namespace Daemon

def init : Daemon := ⟨.running, none⟩

/-- After a handler the main loop goes on or breaks, and then tears the session down. -/
def after (activeSession : Option Session) : Result → Daemon × List Sent
  | .aborted => (⟨.aborted, activeSession⟩, [])
  | .returned true activeSession sent => (⟨.running, activeSession⟩, sent)
  | .returned false _ sent => (⟨.exited, none⟩, sent)

/-- The handler for a call. -/
def handle (d : Daemon) (started : Bool) : Call → Result
  | .start data => sidecarOnStartSession d.activeSession data started
  | .stop sessionId => sidecarOnStopSession d.activeSession (.parsed sessionId)

/-- A message has been received by `api_poll`. -/
def receive (d : Daemon) (json : Json) (started : Bool) : Daemon × List Sent :=
  match apiRecv json with
  | none => (⟨.exited, none⟩, [])
  | some call => after d.activeSession (d.handle started call)

/-- What is sent about a session that `session_poll` has found to be over. -/
def overMessage (session : Session) (crashed : Bool) : Sent :=
  if crashed then .sessionError (cString session.id) "Session crashed"
  else .stopSession (cString session.id)

/-- The session has ended or crashed.  With `STRATUSD_SIDECAR_ONESHOT` the daemon ends too. -/
def sessionOver (oneshot : Bool) (d : Daemon) (session : Session) (crashed : Bool) :
    Daemon × List Sent :=
  let (d, sent) := after d.activeSession (sidecarOnStopSession d.activeSession .member)
  (if oneshot && d.status = .running then ⟨.exited, none⟩ else d, overMessage session crashed :: sent)

/-- The stop of the session by the daemon itself never aborts. -/
theorem sessionOver_eq (oneshot : Bool) {d : Daemon} {session : Session} (crashed : Bool)
    (h : d.activeSession = some session) :
    d.sessionOver oneshot session crashed =
      (⟨if oneshot then .exited else .running, none⟩, [overMessage session crashed, .heartbeat []]) := by
  unfold sessionOver
  rw [h]
  cases oneshot <;> rfl

/-- A stop that comes in a message always aborts. -/
theorem handle_stop (d : Daemon) (started : Bool) (sessionId : List UInt8) :
    d.handle started (.stop sessionId) = .aborted := by
  change sidecarOnStopSession d.activeSession (.parsed sessionId) = .aborted
  unfold sidecarOnStopSession
  split
  · rfl
  · rw [if_neg nofun]

/-- A start aborts if there is a session. -/
theorem handle_start (d : Daemon) (started : Bool) (data : StartSession) :
    d.handle started (.start data) = .aborted ↔ d.activeSession.isSome := by
  change sidecarOnStartSession d.activeSession data started = .aborted ↔ _
  unfold sidecarOnStartSession
  constructor
  · intro h
    by_contra hnone
    rw [if_neg hnone] at h
    split at h <;> cases h
  · intro h
    rw [if_pos h]

end Daemon

end Stratus.SideCar
