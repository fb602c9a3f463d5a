import Stratus.Capture.ProxyStreams

/-! `resize.c`: the client is told the dimensions of the capture session, whatever the compositor
says, and the compositor is not told to show it in fullscreen. -/
namespace Stratus.Capture.Resize

open Stratus.Lib Stratus.Capture.Proxy Stratus.Capture.Forward

/-- `width` and `height` of a `struct capture_session`. -/
structure Dimensions where
  width : UInt32
  height : UInt32

/-- `xdg_toplevel_interface.events[0]`. -/
def configureEvent : Message := ⟨"configure", [.int, .int, .array]⟩

def getToplevelRequest : Message := ⟨"get_toplevel", [.newId (some .xdgToplevel)]⟩

def setFullscreenRequest : Message := ⟨"set_fullscreen", [.object (some .wlOutput) true]⟩

def modeEvent : Message := ⟨"mode", [.uint, .int, .int, .int]⟩

/-- Fullscreen, activated and tiled on all four sides. -/
def states : List UInt8 := wordBytes [2, 4, 5, 6, 7, 8]

def configure (size : Dimensions) (toplevel : UInt32) : Wire.Closure :=
  ⟨toplevel, 0, [.word size.width, .word size.height, .array (some states)]⟩

/-- `closure->args[0].n`. -/
def newToplevel (closure : Wire.Closure) : UInt32 := (closure.args.getD 0 (.id 0)).n

/-- `closure->args[1]` and `closure->args[2]` are set. -/
def withMode (size : Dimensions) (closure : Wire.Closure) : Wire.Closure :=
  { closure with args := (closure.args.set 1 (.word size.width)).set 2 (.word size.height) }

variable {δ : Type}

def xdgSurfaceGetToplevel (size : Dimensions) : OnMessage δ := fun session msg =>
  ⟨session.objData, [⟨.client, configureEvent, configure size (newToplevel msg.closure)⟩],
    msg.closure, .forward⟩

def xdgToplevelConfigure : OnMessage δ := fun session msg => ⟨session.objData, [], msg.closure, .drop⟩

def xdgToplevelSetFullscreen : OnMessage δ := fun session msg =>
  ⟨session.objData, [], msg.closure, .drop⟩

def wlOutputMode (size : Dimensions) : OnMessage δ := fun session msg =>
  ⟨session.objData, [], withMode size msg.closure, .forward⟩

/-- `struct message_handler`. -/
structure MessageHandler (δ : Type) where
  objName : String
  msgName : String
  handler : OnMessage δ

def resizeMessageHandlers (size : Dimensions) : List (MessageHandler δ) :=
  [⟨"xdg_surface", "get_toplevel", xdgSurfaceGetToplevel size⟩,
    ⟨"xdg_toplevel", "configure", xdgToplevelConfigure⟩,
    ⟨"xdg_toplevel", "set_fullscreen", xdgToplevelSetFullscreen⟩,
    ⟨"wl_output", "mode", wlOutputMode size⟩]

def MessageHandler.handles (entry : MessageHandler δ) (msg : ProxyMessage) : Bool :=
  msg.interface.name = entry.objName && msg.message.name = entry.msgName

/-- `handle_message`, which goes through the tables of handlers and takes the first that fits.
`others` is what it does when none of these does. -/
def handleMessage (size : Dimensions) (others : OnMessage δ) : OnMessage δ := fun session msg =>
  match (resizeMessageHandlers size).find? fun entry => entry.handles msg with
  | some entry => entry.handler session msg
  | none => others session msg

/-- The handlers of the other tables leave the closures as they are, and send `wl_buffer@release`
only. -/
def Plain (others : OnMessage δ) : Prop :=
  ∀ session msg, (others session msg).closure = msg.closure ∧
    ∀ x ∈ (others session msg).emitted, x.message = ⟨"release", []⟩ ∧ x.closure.opcode = 0 ∧
      x.closure.args = []

/-- The handlers of a capture session. -/
def Handles (size : Dimensions) (onMessage : OnMessage δ) : Prop :=
  ∃ others, Plain others ∧ onMessage = handleMessage size others

/-! ## The messages that are handled -/

/-- The names in the table stand for one message each. -/
def named : List (String × String × Side × Message) :=
  [("xdg_surface", "get_toplevel", .client, getToplevelRequest),
    ("xdg_toplevel", "configure", .server, configureEvent),
    ("xdg_toplevel", "set_fullscreen", .client, setFullscreenRequest),
    ("wl_output", "mode", .server, modeEvent)]

theorem all_named (i : Interface) (side : Side) :
    (i.messages side).all fun m => named.all fun entry =>
      (i.name = entry.1 && m.name = entry.2.1) == (side = entry.2.2.1 && m = entry.2.2.2) := by
  cases side <;> cases i <;> decide

section Messages

variable {size : Dimensions} {others : OnMessage δ} {msg : ProxyMessage}

theorem handles_iff {entry : String × String × Side × Message} (hentry : entry ∈ named)
    (hmem : msg.message ∈ msg.interface.messages msg.src) (handler : OnMessage δ) :
    MessageHandler.handles ⟨entry.1, entry.2.1, handler⟩ msg = true ↔
      msg.src = entry.2.2.1 ∧ msg.message = entry.2.2.2 := by
  have hall := List.all_eq_true.mp (all_named msg.interface msg.src) msg.message hmem
  have heq := eq_of_beq (List.all_eq_true.mp hall entry hentry)
  rw [MessageHandler.handles, heq, Bool.and_eq_true, decide_eq_true_iff, decide_eq_true_iff]

/-- What `handle_message` does with a message. -/
inductive Handled (size : Dimensions) (others : OnMessage δ) (msg : ProxyMessage) : OnMessage δ → Prop
  | getToplevel (hsrc : msg.src = .client) (hmsg : msg.message = getToplevelRequest) :
      Handled size others msg (xdgSurfaceGetToplevel size)
  | configure (hsrc : msg.src = .server) (hmsg : msg.message = configureEvent) :
      Handled size others msg xdgToplevelConfigure
  | setFullscreen (hsrc : msg.src = .client) (hmsg : msg.message = setFullscreenRequest) :
      Handled size others msg xdgToplevelSetFullscreen
  | mode (hsrc : msg.src = .server) (hmsg : msg.message = modeEvent) :
      Handled size others msg (wlOutputMode size)
  | other (hmsg : ∀ entry ∈ named, ¬ (msg.src = entry.2.2.1 ∧ msg.message = entry.2.2.2)) :
      Handled size others msg others

theorem handleMessage_cases (size : Dimensions) (others : OnMessage δ)
    (hmem : msg.message ∈ msg.interface.messages msg.src) :
    ∃ handler, Handled size others msg handler ∧
      ∀ session, handleMessage size others session msg = handler session msg := by
  have hiff {entry} (hentry : entry ∈ named) := handles_iff (δ := δ) hentry hmem
  cases hfind : (resizeMessageHandlers (δ := δ) size).find? fun entry => entry.handles msg with
  | some entry =>
      refine ⟨entry.handler, ?_, fun session => by rw [handleMessage, hfind]⟩
      have hhandles := List.find?_some hfind
      have hentry := List.mem_of_find?_eq_some hfind
      simp only [resizeMessageHandlers, List.mem_cons, List.not_mem_nil, or_false] at hentry
      rcases hentry with rfl | rfl | rfl | rfl
      · obtain ⟨hsrc, hmsg⟩ := (hiff (.head _) _).mp hhandles
        exact .getToplevel hsrc hmsg
      · obtain ⟨hsrc, hmsg⟩ := (hiff (.tail _ (.head _)) _).mp hhandles
        exact .configure hsrc hmsg
      · obtain ⟨hsrc, hmsg⟩ := (hiff (.tail _ (.tail _ (.head _))) _).mp hhandles
        exact .setFullscreen hsrc hmsg
      · obtain ⟨hsrc, hmsg⟩ := (hiff (.tail _ (.tail _ (.tail _ (.head _)))) _).mp hhandles
        exact .mode hsrc hmsg
  | none =>
      refine ⟨others, .other ?_, fun session => by rw [handleMessage, hfind]⟩
      have hnone := List.find?_eq_none.mp hfind
      simp only [resizeMessageHandlers, List.forall_mem_cons] at hnone
      obtain ⟨hget, hconfigure, hfull, hmode, -⟩ := hnone
      intro entry hentry hboth
      have hhandles := fun handler => (hiff hentry handler).mpr hboth
      simp only [named, List.mem_cons, List.not_mem_nil, or_false] at hentry
      rcases hentry with rfl | rfl | rfl | rfl
      · exact hget (hhandles _)
      · exact hconfigure (hhandles _)
      · exact hfull (hhandles _)
      · exact hmode (hhandles _)

/-- No message is dropped for its name. -/
theorem not_unknownGlobal_of_named {entry : String × String × Side × Message} (hentry : entry ∈ named)
    (hmsg : msg.message = entry.2.2.2) : ¬ msg.UnknownGlobal := by
  rintro ⟨-, hglobal, -⟩
  have hnames : named.all fun entry => entry.2.2.2.name != "global" := rfl
  have hne := List.all_eq_true.mp hnames entry hentry
  rw [← hmsg, hglobal] at hne
  cases hne

/-- What is sent of a message. -/
inductive Sent (size : Dimensions) (msg : ProxyMessage) : List Sending → Prop
  | getToplevel (hsrc : msg.src = .client) (hmsg : msg.message = getToplevelRequest) :
      Sent size msg [⟨.client, configureEvent, configure size (newToplevel msg.closure)⟩,
        ⟨.server, getToplevelRequest, msg.closure⟩]
  | configure (hsrc : msg.src = .server) (hmsg : msg.message = configureEvent) : Sent size msg []
  | setFullscreen (hsrc : msg.src = .client) (hmsg : msg.message = setFullscreenRequest) :
      Sent size msg []
  | mode (hsrc : msg.src = .server) (hmsg : msg.message = modeEvent) :
      Sent size msg [⟨.client, modeEvent, withMode size msg.closure⟩]
  | other {sends : List Sending}
      (hmsg : ∀ entry ∈ named, ¬ (msg.src = entry.2.2.1 ∧ msg.message = entry.2.2.2))
      (hsends : ∀ x ∈ sends, x.message = ⟨"release", []⟩ ∨
        x = ⟨msg.src.other, msg.message, msg.closure⟩) : Sent size msg sends

theorem sent_of_sends (size : Dimensions) (hplain : Plain others)
    (hmem : msg.message ∈ msg.interface.messages msg.src) {sends : List Sending} {closed : List Int}
    (h : Sends (handleMessage size others) msg sends closed) : Sent size msg sends := by
  obtain ⟨handler, hhandled, heq⟩ := handleMessage_cases size others hmem
  cases h with
  | unknown hunknown =>
      refine .other ?_ fun x hx => absurd hx List.not_mem_nil
      exact fun entry hentry hboth => not_unknownGlobal_of_named hentry hboth.2 hunknown
  | dropped session _ haction =>
      rw [heq] at haction ⊢
      cases hhandled with
      | getToplevel => cases haction
      | configure hsrc hmsg => exact .configure hsrc hmsg
      | setFullscreen hsrc hmsg => exact .setFullscreen hsrc hmsg
      | mode => cases haction
      | other hmsg => exact .other hmsg fun x hx => .inl ((hplain session msg).2 x hx).1
  | forwarded session _ haction =>
      rw [heq] at haction ⊢
      cases hhandled with
      | getToplevel hsrc hmsg =>
          rw [hsrc, hmsg]
          exact .getToplevel hsrc hmsg
      | configure => cases haction
      | setFullscreen => cases haction
      | mode hsrc hmsg =>
          rw [hsrc, hmsg]
          exact .mode hsrc hmsg
      | other hmsg =>
          refine .other hmsg fun x hx => ?_
          obtain ⟨hclosure, hemitted⟩ := hplain session msg
          rcases List.mem_append.mp hx with hx | hx
          · exact .inl (hemitted x hx).1
          · rw [List.mem_singleton.mp hx, hclosure]
            exact .inr rfl

/-- None of the messages in the table is sent on by the other handlers. -/
theorem filter_other {entry : String × String × Side × Message} (hentry : entry ∈ named)
    (hmsg : ∀ entry ∈ named, ¬ (msg.src = entry.2.2.1 ∧ msg.message = entry.2.2.2))
    {sends : List Sending} (hsends : ∀ x ∈ sends, x.message = ⟨"release", []⟩ ∨
      x = ⟨msg.src.other, msg.message, msg.closure⟩) :
    (sends.filter fun x => x.dst = entry.2.2.1.other).filter
      (fun x => x.message = entry.2.2.2) = [] := by
  rw [List.filter_filter, List.filter_eq_nil_iff]
  intro x hx hboth
  rw [Bool.and_eq_true, decide_eq_true_iff, decide_eq_true_iff] at hboth
  rcases hsends x hx with hrelease | rfl
  · have hnames : named.all fun entry => entry.2.2.2 != ⟨"release", []⟩ := rfl
    have hne := List.all_eq_true.mp hnames entry hentry
    rw [← hboth.1, hrelease] at hne
    cases hne
  · exact hmsg entry hentry ⟨(other_eq_iff _ _).mp hboth.2, hboth.1⟩

theorem filter_heard {side : Side} {message : Message}
    (h : ¬ (msg.src = side ∧ msg.message = message)) :
    ([msg].filter fun msg => msg.src = side).filter (fun msg => msg.message = message) = [] := by
  rw [List.filter_filter, List.filter_eq_nil_iff]
  intro x hx hboth
  rw [List.mem_singleton.mp hx, Bool.and_eq_true, decide_eq_true_iff, decide_eq_true_iff] at hboth
  exact h hboth.symm

end Messages

/-! ## Runs -/

/-- The client gets one configure event for each toplevel it asks for, with the dimensions of the
session; the modes it is told have these dimensions; and no request for fullscreen goes through. -/
structure Enforced (size : Dimensions) (s : State δ) : Prop where
  configures : ((s.sentTo .client).filter fun x => x.message = configureEvent) =
    ((s.heardFrom .client).filter fun msg => msg.message = getToplevelRequest).map fun msg =>
      ⟨.client, configureEvent, configure size (newToplevel msg.closure)⟩
  modes : ((s.sentTo .client).filter fun x => x.message = modeEvent) =
    ((s.heardFrom .server).filter fun msg => msg.message = modeEvent).map fun msg =>
      ⟨.client, modeEvent, withMode size msg.closure⟩
  fullscreen : ∀ x ∈ s.sentTo .server, x.message ≠ setFullscreenRequest

section Runs

variable {size : Dimensions} {allowed : State δ → Forward.Event → Prop}
  {trace : List Forward.Event} {s t : State δ} {onMessage : OnMessage δ} {src : Side} {len : Int}

/-- What one message adds to each side of these equations. -/
theorem Sent.enforced {msg : ProxyMessage} {sends : List Sending} (h : Sent size msg sends) :
    ((sends.filter fun x => x.dst = .client).filter fun x => x.message = configureEvent) =
        (([msg].filter fun msg => msg.src = .client).filter fun msg =>
          msg.message = getToplevelRequest).map (fun msg =>
            ⟨.client, configureEvent, Resize.configure size (newToplevel msg.closure)⟩) ∧
      ((sends.filter fun x => x.dst = .client).filter fun x => x.message = modeEvent) =
        (([msg].filter fun msg => msg.src = .server).filter fun msg =>
          msg.message = modeEvent).map (fun msg => ⟨.client, modeEvent, withMode size msg.closure⟩) ∧
      ((sends.filter fun x => x.dst = .server).filter fun x => x.message = setFullscreenRequest) = [] := by
  obtain ⟨src, interface, message, closure⟩ := msg
  cases h with
  | getToplevel hsrc hmsg =>
      obtain rfl : src = .client := hsrc
      obtain rfl : message = getToplevelRequest := hmsg
      exact ⟨rfl, rfl, rfl⟩
  | configure hsrc hmsg =>
      obtain rfl : src = .server := hsrc
      obtain rfl : message = configureEvent := hmsg
      exact ⟨rfl, rfl, rfl⟩
  | setFullscreen hsrc hmsg =>
      obtain rfl : src = .client := hsrc
      obtain rfl : message = setFullscreenRequest := hmsg
      exact ⟨rfl, rfl, rfl⟩
  | mode hsrc hmsg =>
      obtain rfl : src = .server := hsrc
      obtain rfl : message = modeEvent := hmsg
      exact ⟨rfl, rfl, rfl⟩
  | other hmsg hsends =>
      have hnone {entry} (hentry : entry ∈ named) := filter_other hentry hmsg hsends
      refine ⟨(hnone (.tail _ (.head _))).trans ?_,
        (hnone (.tail _ (.tail _ (.tail _ (.head _))))).trans ?_,
        hnone (.tail _ (.tail _ (.head _)))⟩
      · rw [filter_heard (hmsg _ (.head _)), List.map_nil]
      · rw [filter_heard (hmsg _ (.tail _ (.tail _ (.tail _ (.head _))))), List.map_nil]

theorem Enforced.handle (h : Enforced size s) (hhandles : Handles size onMessage)
    (hhandle : s.handle onMessage src len = .ok t) : Enforced size t := by
  obtain ⟨others, hplain, rfl⟩ := hhandles
  obtain ⟨msg, sends, closed, ⟨rfl, hmem⟩, hsends, -, -, -, -, -, -, hheard, hsent⟩ :=
    handle_spec hhandle
  obtain ⟨hconfigures, hmodes, hfullscreen⟩ := (sent_of_sends size hplain hmem hsends).enforced
  refine ⟨?_, ?_, ?_⟩
  · rw [State.sentTo, State.heardFrom, hsent, hheard]
    simp only [List.filter_append, List.map_append]
    rw [hconfigures]
    exact congrArg (· ++ _) h.configures
  · rw [State.sentTo, State.heardFrom, hsent, hheard]
    simp only [List.filter_append, List.map_append]
    rw [hmodes]
    exact congrArg (· ++ _) h.modes
  · rw [State.sentTo, hsent, List.filter_append]
    intro x hx
    rcases List.mem_append.mp hx with hx | hx
    · exact h.fullscreen x hx
    · simpa using List.filter_eq_nil_iff.mp hfullscreen x hx

theorem enforced (h : (system (Handles (δ := δ) size) allowed).Run trace s) : Enforced size s := by
  refine h.always (Enforced size) ?_ ?_
  · rintro _ rfl
    exact ⟨rfl, rfl, fun x hx => absurd hx List.not_mem_nil⟩
  · rintro s event t hs ⟨-, onMessage, hhandles, hnext⟩
    cases next_cases hnext with
    | read src chunk failed behind => exact ⟨hs.configures, hs.modes, hs.fullscreen⟩
    | pc pc => exact ⟨hs.configures, hs.modes, hs.fullscreen⟩
    | handle _ _ hhandle => exact hs.handle hhandles hhandle

/-! The closures that are sent are such as their signatures allow. -/

theorem configure_sendable (size : Dimensions) (toplevel : UInt32) :
    (configure size toplevel).Sendable (signature configureEvent) := by
  have harguments := arguments_signature configureEvent
  have hlength : ((configure size toplevel).body (signature configureEvent)).length = 9 := rfl
  refine ⟨?_, by decide, Nat.two_pow_pos 16, by rw [hlength]; decide⟩
  rw [harguments]
  exact .cons .int (.cons .int (.cons (.array (by decide)) .nil))

theorem withMode_sendable {closure : Wire.Closure} (h : closure.Sendable (signature modeEvent)) :
    (withMode size closure).Sendable (signature modeEvent) := by
  have harguments := arguments_signature modeEvent
  obtain ⟨id, opcode, args⟩ := closure
  obtain ⟨hargs, hcount, hopcode, hsize⟩ := h
  rw [harguments] at hargs
  have hvalid : List.Forall₂ Wire.Argument.Valid
    [⟨.uint, false⟩, ⟨.int, false⟩, ⟨.int, false⟩, ⟨.int, false⟩] args := hargs
  rcases hvalid with _ | ⟨hflags, _ | ⟨_, _ | ⟨_, _ | ⟨hrefresh, _ | _⟩⟩⟩⟩
  refine ⟨?_, hcount, hopcode, hsize⟩
  rw [harguments]
  exact .cons hflags (.cons .int (.cons .int (.cons hrefresh .nil)))

theorem release_sendable {x : Sending} (hmessage : x.message = ⟨"release", []⟩)
    (hopcode : x.closure.opcode = 0) (hargs : x.closure.args = []) :
    x.closure.Sendable (signature x.message) := by
  obtain ⟨dst, message, id, opcode, args⟩ := x
  obtain rfl : message = ⟨"release", []⟩ := hmessage
  obtain rfl : opcode = 0 := hopcode
  obtain rfl : args = [] := hargs
  have hsize : 4 * (0 + 2) < 2 ^ 16 := by decide
  exact ⟨.nil, Nat.zero_le _, Nat.two_pow_pos 16, hsize⟩

theorem Handles.sound {onMessage : OnMessage δ} (h : Handles size onMessage) : Sound onMessage := by
  obtain ⟨others, hplain, rfl⟩ := h
  intro session msg hmem hsendable
  obtain ⟨handler, hhandled, heq⟩ := handleMessage_cases size others hmem
  rw [heq]
  cases hhandled with
  | getToplevel =>
      refine ⟨hsendable, fun x hx => ?_⟩
      rw [List.mem_singleton.mp hx]
      exact configure_sendable size _
  | configure => exact ⟨hsendable, fun x hx => absurd hx List.not_mem_nil⟩
  | setFullscreen => exact ⟨hsendable, fun x hx => absurd hx List.not_mem_nil⟩
  | mode _ hmsg =>
      rw [hmsg] at hsendable ⊢
      exact ⟨withMode_sendable hsendable, fun x hx => absurd hx List.not_mem_nil⟩
  | other =>
      obtain ⟨hclosure, hemitted⟩ := hplain session msg
      rw [hclosure]
      refine ⟨hsendable, fun x hx => ?_⟩
      obtain ⟨hmessage, hopcode, hargs⟩ := hemitted x hx
      exact release_sendable hmessage hopcode hargs

/-- A client opens a window, asks for fullscreen and binds an output; the compositor configures the
window and announces a mode. -/
def window : List Signed :=
  [getRegistry, bindRequest "xdg_wm_base" 3, (['n', 'o'], ⟨3, 2, [.id 4, .id 9]⟩),
    (['n'], ⟨4, 1, [.id 5]⟩), (['?', 'o'], ⟨5, 11, [.id 0]⟩), bindRequest "wl_output" 6]

def compositor : List Signed :=
  [(['i', 'i', 'a'], ⟨5, 0, [.word 800, .word 600, .array (some [])]⟩),
    (['u', 'i', 'i', 'i'], ⟨6, 1, [.word 1, .word 2560, .word 1440, .word 60000]⟩)]

def opened : List Forward.Event :=
  .data .client (wire window) false (fun _ => 0) :: List.replicate 7 (.turn true) ++
    .data .server (wire compositor) false (fun _ => 0) :: List.replicate 3 (.turn true)

end Runs

end Stratus.Capture.Resize
