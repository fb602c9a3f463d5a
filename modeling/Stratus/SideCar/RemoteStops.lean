import Stratus.Lib.Transition
import Stratus.SideCar.Daemon

/-! A backend that starts a session only when it knows of none, and the daemon, with the
messages between them. -/
namespace Stratus.SideCar

open Stratus.Lib

/-- A message that was handled: the session before it and how the handler ended. -/
structure Handled where
  before : Option Session
  call : Call
  result : Result

/-- `known` is the session that the backend knows of; `down` and `up` are on the way. -/
structure Link where
  daemon : Daemon
  known : Option (List UInt8)
  down : List Json
  up : List Sent
  handled : List Handled

/-- The session that a message says is over. -/
def Sent.ended : Sent → Option (List UInt8)
  | .stopSession sessionId => some sessionId
  | .sessionError sessionId _ => some sessionId
  | .heartbeat _ => none
  | .startConfirmed _ => none

namespace Link

def init : Link := ⟨.init, none, [], [], []⟩

/-- A session is known from its start until the node has told of its end. -/
def told (known : Option (List UInt8)) (message : Sent) : Option (List UInt8) :=
  if message.ended.isSome && message.ended = known then none else known

def daemonDid (l : Link) (did : Daemon × List Sent) : Link :=
  { l with daemon := did.1, up := l.up ++ did.2 }

/-- The backend may also take a session for ended that it has sent a stop for. -/
inductive Step (oneshot : Bool) : Link → Link → Prop where
  | start {l : Link} {json : Json} {data : StartSession} :
      apiRecv json = some (.start data) → l.known = none →
      Step oneshot l { l with known := some data.sessionId, down := l.down ++ [json] }
  | stop {l : Link} {json : Json} {sessionId : List UInt8} (known : Option (List UInt8)) :
      apiRecv json = some (.stop sessionId) →
      known = l.known ∨ known = none ∧ l.known = some sessionId →
      Step oneshot l { l with known := known, down := l.down ++ [json] }
  | learn {l : Link} {message : Sent} {up : List Sent} : l.up = message :: up →
      Step oneshot l { l with known := told l.known message, up := up }
  | heartbeat {l : Link} : l.daemon.status = .running →
      Step oneshot l (l.daemonDid (l.daemon, [sidecarHeartbeat l.daemon.activeSession]))
  | ended {l : Link} {session : Session} (crashed : Bool) : l.daemon.status = .running →
      l.daemon.activeSession = some session →
      Step oneshot l (l.daemonDid (l.daemon.sessionOver oneshot session crashed))
  | receive {l : Link} {json : Json} {down : List Json} {call : Call} (started : Bool) :
      l.daemon.status = .running → l.down = json :: down → apiRecv json = some call →
      Step oneshot l
        { l.daemonDid (l.daemon.receive json started) with
          down := down
          handled := l.handled ++
            [⟨l.daemon.activeSession, call, l.daemon.handle started call⟩] }
  | exit {l : Link} : l.daemon.status = .running →
      Step oneshot l { l with daemon := ⟨.exited, none⟩ }

def system (oneshot : Bool) : System Link where
  init l := l = init
  step := Step oneshot

end Link

/-- A start does not abort.  A stop for the active session tears it down, and any other stop
changes nothing. -/
def Handled.Robust (h : Handled) : Prop :=
  match h.call with
  | .start _ => h.result ≠ .aborted
  | .stop sessionId =>
      ∃ sent, h.result = .returned true
        (h.before.filter fun session => cString session.id ≠ sessionId) sent

/-- No assertion has failed, and every message was handled so. -/
structure Link.Robust (l : Link) : Prop where
  running : l.daemon.status ≠ .aborted
  handled : ∀ h ∈ l.handled, h.Robust

def Call.IsStop : Call → Prop
  | .start _ => False
  | .stop _ => True

/-! ### The session on its way -/

def isStop (json : Json) : Bool :=
  match apiRecv json with
  | some (.stop _) => true
  | _ => false

namespace Link

/-- The messages before the first stop. -/
def ahead (down : List Json) : List Json := down.takeWhile fun json => !isStop json

/-- A session that was started is on its way to the node, active, or on its way back. -/
def tokens (down : List Json) (active : Option Session) (up : List Sent) : Nat :=
  down.length + active.toList.length + up.countP fun message => message.ended.isSome

/-- The invariant of a daemon that runs.  What the backend knows of it is not the truth any
more once there is a stop for it. -/
structure Quiet (down : List Json) (active : Option Session) (up : List Sent)
    (known : Option (List UInt8)) : Prop where
  one : (ahead down).length + active.toList.length ≤ 1
  tokens : (∀ json ∈ down, isStop json = false) → tokens down active up ≤ known.toList.length

structure Inv (l : Link) : Prop where
  start : ∀ h ∈ l.handled, ¬ h.call.IsStop → h.result ≠ .aborted
  stop : ∀ h ∈ l.handled, h.call.IsStop → h.result = .aborted
  aborted : l.daemon.status = .aborted → ∃ h ∈ l.handled, h.call.IsStop
  running : l.daemon.status = .running →
    Quiet l.down l.daemon.activeSession l.up l.known

/-- What comes after a stop is not ahead. -/
theorem ahead_snoc {down : List Json} (json : Json)
    (h : isStop json = true ∨ ∃ stop ∈ down, isStop stop = true) :
    ahead (down ++ [json]) = ahead down := by
  unfold ahead
  induction down with
  | nil =>
      rcases h with hstop | ⟨stop, hmem, _⟩
      · simp [hstop]
      · cases hmem
  | cons first rest ih =>
      rw [List.cons_append, List.takeWhile_cons, List.takeWhile_cons]
      split
      · next hfirst =>
        refine congrArg (first :: ·) (ih (h.imp_right ?_))
        rintro ⟨stop, hmem, hstop⟩
        rcases List.mem_cons.mp hmem with rfl | hmem
        · rw [hstop] at hfirst
          cases hfirst
        · exact ⟨stop, hmem, hstop⟩
      · rfl

theorem isStop_start {json : Json} {data : StartSession} (h : apiRecv json = some (.start data)) :
    isStop json = false := by
  rw [isStop, h]

theorem isStop_stop {json : Json} {sessionId : List UInt8}
    (h : apiRecv json = some (.stop sessionId)) : isStop json = true := by
  rw [isStop, h]

section Quiet

variable {down : List Json} {active : Option Session} {up : List Sent}
    {known : Option (List UInt8)} (h : Quiet down active up known)

include h

/-- The backend sends a start. -/
theorem Quiet.start (json : Json) (sessionId : List UInt8) (hknown : known = none) :
    Quiet (down ++ [json]) active up (some sessionId) := by
  by_cases hstop : ∃ stop ∈ down, isStop stop = true
  · constructor
    · rw [ahead_snoc json (.inr hstop)]
      exact h.one
    · intro hnone
      obtain ⟨stop, hmem, hstop⟩ := hstop
      rw [hnone stop (List.mem_append_left _ hmem)] at hstop
      cases hstop
  · have hnone : ∀ stop ∈ down, isStop stop = false := by
      intro stop hmem
      exact Bool.eq_false_iff.mpr fun hstop' => hstop ⟨stop, hmem, hstop'⟩
    have htokens := h.tokens hnone
    rw [hknown, Link.tokens, Option.toList_none, List.length_nil] at htokens
    constructor
    · have hahead : (ahead (down ++ [json])).length ≤ (down ++ [json]).length :=
        (List.takeWhile_sublist _).length_le
      rw [List.length_append, List.length_singleton] at hahead
      omega
    · intro _
      rw [Link.tokens, List.length_append, List.length_singleton]
      change _ ≤ 1
      omega

/-- The backend sends a stop. -/
theorem Quiet.stop {json : Json} (known' : Option (List UInt8)) (hjson : isStop json = true) :
    Quiet (down ++ [json]) active up known' := by
  constructor
  · rw [ahead_snoc json (.inl hjson)]
    exact h.one
  · intro hnone
    have hstop := hnone json (List.mem_append_right _ List.mem_cons_self)
    rw [hjson] at hstop
    cases hstop

/-- The node sends a message that is not about an end. -/
theorem Quiet.send {message : Sent} (hmessage : message.ended = none) :
    Quiet down active (up ++ [message]) known := by
  refine ⟨h.one, fun hnone => ?_⟩
  have htokens := h.tokens hnone
  rw [Link.tokens] at htokens ⊢
  rw [List.countP_append, List.countP_singleton, hmessage]
  exact htokens

/-- The session is over. -/
theorem Quiet.ended {message : Sent} {session : Session} (hactive : active = some session)
    (hmessage : message.ended.isSome = true) :
    Quiet down none (up ++ [message]) known := by
  have hone := h.one
  constructor
  · change _ + 0 ≤ 1
    omega
  · intro hnone
    have htokens := h.tokens hnone
    rw [Link.tokens, hactive, Option.toList_some, List.length_singleton] at htokens
    rw [Link.tokens, List.countP_append, List.countP_singleton, if_pos hmessage, Option.toList_none,
      List.length_nil]
    omega

/-- There is no session in the way of a start. -/
theorem Quiet.receive {json : Json} {rest : List Json} (hdown : down = json :: rest)
    (hjson : isStop json = false) (session : Session) :
    active = none ∧ Quiet rest (some session) up known := by
  have hone := h.one
  have hahead : (ahead down).length = (ahead rest).length + 1 := by
    rw [hdown, ahead, List.takeWhile_cons, hjson]
    rfl
  have hnone : active = none := by
    cases active with
    | none => rfl
    | some session =>
        rw [Option.toList_some, List.length_singleton] at hone
        omega
  refine ⟨hnone, ?_, fun hstops => ?_⟩
  · rw [Option.toList_some, List.length_singleton]
    omega
  · have htokens := h.tokens fun json' hmem => by
      rw [hdown] at hmem
      rcases List.mem_cons.mp hmem with rfl | hmem
      · exact hjson
      · exact hstops json' hmem
    rw [Link.tokens, hdown, hnone, List.length_cons] at htokens
    rw [Link.tokens, Option.toList_some, List.length_singleton]
    change _ + 0 + _ ≤ _ at htokens
    omega

end Quiet

/-- The backend reads a message. -/
theorem Quiet.learn {down : List Json} {active : Option Session} {message : Sent} {up : List Sent}
    {known : Option (List UInt8)} (h : Quiet down active (message :: up) known) :
    Quiet down active up (told known message) := by
  refine ⟨h.one, fun hnone => ?_⟩
  have htokens := h.tokens hnone
  rw [Link.tokens, List.countP_cons] at htokens
  unfold told Link.tokens
  split
  · next hended =>
    obtain ⟨hsome, hknown⟩ := Bool.and_eq_true_iff.mp hended
    have hone : known.toList.length ≤ 1 := by cases known <;> simp
    rw [if_pos hsome] at htokens
    rw [Option.toList_none, List.length_nil]
    omega
  · omega

/-! ### Runs -/

/-- A step that handles no message and after which the daemon runs only if it did before. -/
theorem Inv.silent {l l' : Link} (h : l.Inv) (hhandled : l'.handled = l.handled)
    (haborted : l'.daemon.status = .aborted → l.daemon.status = .aborted)
    (hrunning : l'.daemon.status = .running →
      l.daemon.status = .running ∧ Quiet l'.down l'.daemon.activeSession l'.up l'.known) :
    l'.Inv where
  start := hhandled ▸ h.start
  stop := hhandled ▸ h.stop
  aborted hstatus := hhandled ▸ h.aborted (haborted hstatus)
  running hstatus := (hrunning hstatus).2

/-- A message is handled. -/
theorem Inv.receive {l : Link} (h : l.Inv) {json : Json} {down : List Json} {call : Call}
    (started : Bool) (hstatus : l.daemon.status = .running) (hdown : l.down = json :: down)
    (hjson : apiRecv json = some call) :
    Inv
      { l.daemonDid (l.daemon.receive json started) with
        down := down
        handled := l.handled ++ [⟨l.daemon.activeSession, call, l.daemon.handle started call⟩] } := by
  have hquiet := h.running hstatus
  have hreceive : l.daemon.receive json started =
      Daemon.after l.daemon.activeSession (l.daemon.handle started call) := by
    rw [Daemon.receive, hjson]
  rw [hreceive]
  cases call with
  | stop sessionId =>
      have haborted := l.daemon.handle_stop started sessionId
      rw [haborted]
      refine ⟨List.forall_mem_append.mpr ⟨h.start, ?_⟩, List.forall_mem_append.mpr ⟨h.stop, ?_⟩,
        fun _ => ?_, nofun⟩
      · rw [List.forall_mem_singleton]
        exact fun hstop => absurd trivial hstop
      · rw [List.forall_mem_singleton]
        exact fun _ => rfl
      · exact ⟨_, List.mem_append_right _ List.mem_cons_self, trivial⟩
  | start data =>
      obtain ⟨hnone, hquiet'⟩ := hquiet.receive hdown (isStop_start hjson) (sessionOf data)
      have hresult : l.daemon.handle started (.start data) ≠ .aborted := by
        rw [Ne, Daemon.handle_start, hnone]
        exact nofun
      have hstart : ∀ handled ∈ l.handled ++ [⟨l.daemon.activeSession, .start data,
          l.daemon.handle started (.start data)⟩], ¬ handled.call.IsStop →
          handled.result ≠ .aborted := by
        refine List.forall_mem_append.mpr ⟨h.start, ?_⟩
        rw [List.forall_mem_singleton]
        exact fun _ => hresult
      have hstop : ∀ handled ∈ l.handled ++ [⟨l.daemon.activeSession, .start data,
          l.daemon.handle started (.start data)⟩], handled.call.IsStop →
          handled.result = .aborted := by
        refine List.forall_mem_append.mpr ⟨h.stop, ?_⟩
        rw [List.forall_mem_singleton]
        exact False.elim
      cases started with
      | true =>
          have heq : l.daemon.handle true (.start data) =
              .returned true (some (sessionOf data)) [.startConfirmed data.sessionId] := by
            rw [Daemon.handle, sidecarOnStartSession, hnone]
            rfl
          refine ⟨hstart, hstop, ?_, ?_⟩
          · rw [heq]
            exact nofun
          · rw [heq]
            exact fun _ => hquiet'.send rfl
      | false =>
          have heq : l.daemon.handle false (.start data) =
              .returned false none [.sessionError data.sessionId "Failed to start session"] := by
            rw [Daemon.handle, sidecarOnStartSession, hnone]
            rfl
          refine ⟨hstart, hstop, ?_, ?_⟩ <;> rw [heq] <;> exact nofun

theorem Inv.step {oneshot : Bool} {l l' : Link} (h : l.Inv) (hstep : Step oneshot l l') : l'.Inv := by
  cases hstep with
  | start hjson hknown =>
      exact h.silent rfl id fun hstatus => ⟨hstatus, (h.running hstatus).start _ _ hknown⟩
  | stop known hjson _ =>
      exact h.silent rfl id fun hstatus => ⟨hstatus, (h.running hstatus).stop known (isStop_stop hjson)⟩
  | learn hup =>
      refine h.silent rfl id fun hstatus => ⟨hstatus, ?_⟩
      have hquiet := h.running hstatus
      rw [hup] at hquiet
      exact hquiet.learn
  | heartbeat hstatus =>
      exact h.silent rfl id fun _ => ⟨hstatus, (h.running hstatus).send rfl⟩
  | @ended session crashed hstatus hsession =>
      rw [Daemon.sessionOver_eq oneshot crashed hsession]
      have hended : (Daemon.overMessage session crashed).ended.isSome = true := by
        cases crashed <;> rfl
      have hquiet : Quiet l.down none
          (l.up ++ [Daemon.overMessage session crashed] ++ [.heartbeat []]) l.known :=
        ((h.running hstatus).ended hsession hended).send rfl
      refine h.silent rfl ?_ fun _ => ⟨hstatus, ?_⟩
      · cases oneshot <;> exact nofun
      · rw [List.append_assoc] at hquiet
        exact hquiet
  | receive started hstatus hdown hjson => exact h.receive started hstatus hdown hjson
  | exit hstatus => exact h.silent rfl nofun nofun

theorem init_inv : init.Inv where
  start h hmem := by cases hmem
  stop h hmem := by cases hmem
  aborted hstatus := by cases hstatus
  running _ := ⟨Nat.zero_le 1, fun _ => le_rfl⟩

theorem inv_of_reachable {oneshot : Bool} {l : Link} (h : (system oneshot).Reachable l) : l.Inv := by
  refine h.invariant Inv ?_ fun _ _ => Inv.step
  rintro _ rfl
  exact init_inv

/-- In every run the messages have been handled well and no assertion has failed if and only
if no `stop_session` has been received. -/
theorem robust_iff_no_stop (oneshot : Bool) (l : Link) (hl : (system oneshot).Reachable l) :
    l.Robust ↔ ∀ h ∈ l.handled, ¬ h.call.IsStop := by
  have hinv := inv_of_reachable hl
  constructor
  · intro hrobust h hmem hstop
    have haborted := hinv.stop h hmem hstop
    have hclaim := hrobust.handled h hmem
    obtain ⟨before, call, result⟩ := h
    cases call with
    | start data => exact hstop
    | stop sessionId =>
        obtain ⟨sent, hresult⟩ := hclaim
        rw [haborted] at hresult
        cases hresult
  · intro hnone
    constructor
    · intro haborted
      obtain ⟨h, hmem, hstop⟩ := hinv.aborted haborted
      exact hnone h hmem hstop
    · intro h hmem
      have hstart := hinv.start h hmem (hnone h hmem)
      obtain ⟨before, call, result⟩ := h
      cases call with
      | start data => exact hstart
      | stop sessionId => exact absurd trivial (hnone _ hmem)

def startJson : Json :=
  .obj
    [("type", .str "start_session"),
      ("payload", .obj
        [("session_id", .str "s"), ("game_id", .str "g"), ("width", .num 1920),
          ("height", .num 1080), ("user_id", .str "u"), ("user_name", .str "n")])]

def startData : StartSession := ⟨[115], [103], 1920, 1080, [117], [110]⟩

def stopJson : Json :=
  .obj [("type", .str "stop_session"), ("payload", .obj [("session_id", .str "s")])]

theorem apiRecv_startJson : apiRecv startJson = some (.start startData) := rfl

/-- A session that is started and ends by itself. -/
theorem robust_game_exit : ∃ l : Link, l.Robust ∧ l.handled.length = 1 ∧ l.up.length = 3 := by
  have h : (system false).Reachable init := .start rfl
  replace h := h.next (.start apiRecv_startJson rfl)
  replace h := h.next (.receive true rfl rfl apiRecv_startJson)
  replace h := h.next (.ended false rfl rfl)
  have hrobust := (robust_iff_no_stop false _ h).mpr (by
    intro handled hmem
    obtain rfl := List.mem_singleton.mp hmem
    exact id)
  exact ⟨_, hrobust, rfl, rfl⟩

/-- The backend stops the session that it has started. -/
theorem remote_stop_aborts : ¬ ∀ oneshot (l : Link), (system oneshot).Reachable l → l.Robust := by
  intro hall
  have h : (system false).Reachable init := .start rfl
  replace h := h.next (.start apiRecv_startJson rfl)
  replace h := h.next (.receive true rfl rfl apiRecv_startJson)
  replace h := h.next (.stop none (show apiRecv stopJson = some (.stop [115]) from rfl) (.inr ⟨rfl, rfl⟩))
  replace h := h.next (.receive true rfl rfl rfl)
  exact (hall false _ h).running rfl

end Link

end Stratus.SideCar
