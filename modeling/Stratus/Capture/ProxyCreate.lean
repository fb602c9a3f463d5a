import Stratus.Capture.ProxyRun
import Stratus.Lib.Ledger

/-! `proxy_create_session` and what it does with its resources, label by label, as `proxy_run`
calls it. -/
namespace Stratus.Capture.Proxy

open Stratus.Lib

/-- What a new session takes.  `fd` is the descriptor of the client or of the compositor, and
`registration` is its entry in the epoll instance. -/
inductive Resource where
  | session
  | name
  | fd (side : Side)
  | conn (side : Side)
  | wlConn (side : Side)
  | registration (side : Side)
  | objTypes
  | objData
deriving DecidableEq

/-- Whether the calls succeed. -/
structure CreateCalls where
  zallocSession : Bool
  mallocName : Bool
  snprintf : Bool
  mallocConn : Side → Bool
  wlConnectionCreate : Side → Bool
  proxyEpollAddFd : Side → Bool
  connectToSocket : Bool
  mallocObjTypes : Bool
  mallocObjData : Bool
  onSessionCreate : Bool

/-- How the function ends: `crashed` is `snprintf` to `NULL`. -/
inductive Created where
  | success
  | failure
  | aborted
  | crashed
deriving DecidableEq

abbrev Acts := List (Act Resource)

/-- `proxy_add_connection`, and whether it returns 0. -/
def proxyAddConnection (calls : CreateCalls) (side : Side) : Acts × Bool :=
  if !calls.mallocConn side then ([], false)
  else if !calls.wlConnectionCreate side then
    ([.acquire (.conn side), .release (.conn side)], false)
  else if !calls.proxyEpollAddFd side then
    ([.acquire (.conn side), .acquire (.wlConn side), .use (.fd side), .release (.wlConn side),
      .release (.conn side)], false)
  else
    ([.acquire (.conn side), .acquire (.wlConn side), .use (.fd side),
      .acquire (.registration side)], true)

def proxyDestroyConnection (side : Side) : Acts :=
  [.use (.conn side), .release (.wlConn side), .release (.registration side), .release (.fd side),
    .release (.conn side)]

/-! The labels, each with those it falls through to. -/

def errName : Acts := [.release .session]

/-- `err_client` and `err_sprintf`. -/
def errClient : Acts := .release .name :: errName

def errServerSocket : Acts := proxyDestroyConnection .client ++ errClient

def errServerConn : Acts := .release (.fd .server) :: errServerSocket

def errObjTypes : Acts := proxyDestroyConnection .server ++ errServerConn

def errObjData : Acts := .release .objTypes :: errObjTypes

def errHandler : Acts := .release .objData :: errObjData

variable {δ : Type}

/-- The end of the function, after the server connection. -/
def createMaps (calls : CreateCalls) : Acts × Created :=
  if !calls.mallocObjTypes then (errObjTypes, .failure)
  else if !calls.mallocObjData then (.acquire .objTypes :: errObjData, .failure)
  else if !calls.onSessionCreate then
    (.acquire .objTypes :: .acquire .objData :: errHandler, .failure)
  else ([.acquire .objTypes, .acquire .objData], .success)

/-- From the connection to the client on. -/
def connectPeers (calls : CreateCalls) : Acts × Created :=
  let client := proxyAddConnection calls .client
  if !client.2 then (client.1 ++ errClient, .failure)
  else if !calls.connectToSocket then (client.1 ++ errServerSocket, .failure)
  else
    let server := proxyAddConnection calls .server
    let acts := client.1 ++ .acquire (.fd .server) :: server.1
    if !server.2 then (acts ++ errServerConn, .failure)
    else
      let rest := createMaps calls
      (acts ++ rest.1, rest.2)

/-- `proxy_create_session`.  The check of `malloc`, `session->name < 0`, is never true. -/
def createSession (calls : CreateCalls) (freeIndex : Option Nat) : Acts × Created :=
  if !calls.zallocSession then ([], .failure)
  else if !calls.mallocName then ([.acquire .session], .crashed)
  else if !calls.snprintf then (.acquire .session :: .acquire .name :: errClient, .failure)
  else
    match freeIndex with
    | none => ([.acquire .session, .acquire .name], .aborted)
    | some _ =>
        let rest := connectPeers calls
        (.acquire .session :: .acquire .name :: rest.1, rest.2)

/-- The branch of `proxy_run` for a client that has connected: it closes the descriptor when the
function fails.  The result is what happens, what is done with the resources and the table. -/
def Run.connectClient (s : Run δ) (calls : CreateCalls) : Created × Acts × Run δ :=
  let did := createSession calls s.freeIndex
  match did.2 with
  | .success =>
      (.success, did.1,
        { s with
          sessions := s.sessions.set (s.freeIndex.getD 0) (some ⟨.start δ, []⟩)
          nextSessionId := s.nextSessionId + 1 })
  | .failure => (.failure, did.1 ++ [.release (.fd .client)], { s with stopped := some .noResources })
  | .aborted => (.aborted, did.1, { s with stopped := some .tooManySessions })
  | .crashed => (.crashed, did.1, { s with stopped := some .noResources })

/-- -1 is returned, all that was taken has been given back once, the client's descriptor too, and
the sessions are as before. -/
structure AllOrNothing (calls : CreateCalls) (s : Run δ) : Prop where
  fails : (s.connectClient calls).1 = .failure
  settles : Settles [.fd .client] (s.connectClient calls).2.1
  sessions : (s.connectClient calls).2.2.sessions = s.sessions
  nextSessionId : (s.connectClient calls).2.2.nextSessionId = s.nextSessionId

/-- The connection to the client is set up. -/
def CreateCalls.addsClient (calls : CreateCalls) : Bool :=
  calls.mallocConn .client && calls.wlConnectionCreate .client && calls.proxyEpollAddFd .client

/-- The session struct or its name is not made, or the connection to the client is not; and there
is memory for the name and a free entry where they are needed. -/
def CreateCalls.FailsEarly (calls : CreateCalls) (freeIndex : Option Nat) : Prop :=
  calls.zallocSession = false ∨
    calls.mallocName = true ∧
      (calls.snprintf = false ∨ freeIndex.isSome = true ∧ calls.addsClient = false)

/-- Nothing fails. -/
def CreateCalls.ready (calls : CreateCalls) : Bool :=
  calls.zallocSession && calls.mallocName && calls.snprintf && calls.addsClient &&
    calls.connectToSocket && calls.mallocConn .server && calls.wlConnectionCreate .server &&
    calls.proxyEpollAddFd .server && calls.mallocObjTypes && calls.mallocObjData &&
    calls.onSessionCreate

/-- When the function fails, it has taken nothing. -/
def FailureClean (calls : CreateCalls) (s : Run δ) : Prop :=
  (s.connectClient calls).1 ≠ .success → AllOrNothing calls s

variable {calls : CreateCalls} {s : Run δ}

theorem proxyAddConnection_result (calls : CreateCalls) (side : Side) :
    (proxyAddConnection calls side).2 =
      (calls.mallocConn side && calls.wlConnectionCreate side && calls.proxyEpollAddFd side) := by
  unfold proxyAddConnection
  cases calls.mallocConn side <;> cases calls.wlConnectionCreate side <;>
    cases calls.proxyEpollAddFd side <;> rfl

theorem proxyAddConnection_client : (proxyAddConnection calls .client).2 = calls.addsClient :=
  proxyAddConnection_result calls .client

/-- A connection that cannot be set up leaves nothing behind. -/
theorem settle_addConnection {side : Side} {held : List Resource} (hfd : .fd side ∈ held)
    (hconn : .conn side ∉ held) (hwlConn : .wlConn side ∉ held)
    (hfails : (proxyAddConnection calls side).2 = false) :
    settle (proxyAddConnection calls side).1 held = some held := by
  unfold proxyAddConnection at hfails ⊢
  split_ifs at hfails ⊢
  · rfl
  · simp [settle, hconn]
  · simp [settle, hconn, hwlConn, hfd]

/-! ### Once the client is connected -/

/-- Every label behind the connection falls through to the one that destroys it. -/
theorem createMaps_failure (h : (createMaps calls).2 = .failure) :
    ∃ acts, (createMaps calls).1 = acts ++ errServerSocket := by
  have hserver : errObjTypes =
      proxyDestroyConnection .server ++ [.release (.fd .server)] ++ errServerSocket := rfl
  unfold createMaps at h ⊢
  split_ifs at h ⊢
  · exact ⟨_, hserver⟩
  · exact ⟨.acquire .objTypes :: .release .objTypes ::
      (proxyDestroyConnection .server ++ [.release (.fd .server)]), rfl⟩
  · exact ⟨.acquire .objTypes :: .acquire .objData :: .release .objData :: .release .objTypes ::
      (proxyDestroyConnection .server ++ [.release (.fd .server)]), rfl⟩

theorem connectPeers_failure (hclient : calls.addsClient = true)
    (h : (connectPeers calls).2 = .failure) :
    ∃ acts, (connectPeers calls).1 = acts ++ errServerSocket := by
  unfold connectPeers at h ⊢
  simp only [proxyAddConnection_client, hclient, Bool.not_true, Bool.false_eq_true, if_false] at h ⊢
  split_ifs at h ⊢
  · exact ⟨_, rfl⟩
  · exact ⟨_, List.append_cons _ _ _⟩
  · obtain ⟨acts, hacts⟩ := createMaps_failure h
    refine ⟨(proxyAddConnection calls .client).1 ++ .acquire (.fd .server) ::
      (proxyAddConnection calls .server).1 ++ acts, ?_⟩
    rw [List.append_assoc _ acts, hacts]

/-- The caller closes the descriptor that the destroyed connection has closed. -/
theorem not_settles_errServerSocket (acts : Acts) :
    ¬ Settles [.fd .client] (acts ++ errServerSocket ++ [.release (.fd .client)]) := by
  have hsplit : acts ++ errServerSocket ++ [.release (.fd .client)] =
      (acts ++ [.use (.conn .client), .release (.wlConn .client),
        .release (.registration .client)]) ++
      (.release (.fd .client) :: [.release (.conn .client), .release .name, .release .session] ++
        .release (.fd .client) :: []) := by
    simp [errServerSocket, proxyDestroyConnection, errClient, errName]
  rw [Settles, hsplit, settle_reuse (by decide) (by decide) (.inr rfl)]
  exact nofun

/-! ### Before that -/

theorem connectPeers_early (hclient : calls.addsClient = false) :
    (connectPeers calls).2 = .failure ∧
      settle (connectPeers calls).1 [.name, .session, .fd .client] = some [.fd .client] := by
  have hfails := proxyAddConnection_client.trans hclient
  unfold connectPeers
  simp only [hfails, Bool.not_false, if_true, true_and]
  rw [settle_append, settle_addConnection (by decide) (by decide) (by decide) hfails]
  decide

theorem settle_errClient :
    settle (.acquire .session :: .acquire .name :: errClient) [.fd .client] = some [.fd .client] := by
  decide

theorem createSession_early (h : calls.FailsEarly s.freeIndex) :
    (createSession calls s.freeIndex).2 = .failure ∧
      settle (createSession calls s.freeIndex).1 [.fd .client] = some [.fd .client] := by
  unfold createSession
  obtain hsession | ⟨hname, hfails⟩ := h
  · rw [hsession]
    exact ⟨rfl, rfl⟩
  · cases calls.zallocSession with
    | false => exact ⟨rfl, rfl⟩
    | true =>
        simp only [hname, Bool.not_true, Bool.false_eq_true, if_false]
        obtain hsnprintf | ⟨hfree, hclient⟩ := hfails
        · rw [hsnprintf]
          exact ⟨rfl, settle_errClient⟩
        · cases calls.snprintf with
          | false => exact ⟨rfl, settle_errClient⟩
          | true =>
              obtain ⟨idx, hidx⟩ := Option.isSome_iff_exists.mp hfree
              rw [hidx]
              exact connectPeers_early hclient

theorem connectClient_failure (h : (createSession calls s.freeIndex).2 = .failure) :
    s.connectClient calls = (.failure,
      (createSession calls s.freeIndex).1 ++ [.release (.fd .client)],
      { s with stopped := some .noResources }) := by
  simp only [Run.connectClient, h]

theorem allOrNothing_of_failsEarly (h : calls.FailsEarly s.freeIndex) : AllOrNothing calls s := by
  obtain ⟨hfailure, hsettle⟩ := createSession_early h
  have heq := connectClient_failure hfailure
  refine ⟨by rw [heq], ?_, by rw [heq], by rw [heq]⟩
  rw [heq, Settles, settle_append, hsettle]
  decide

/-! ### Otherwise -/

theorem createMaps_result : (createMaps calls).2 =
    if calls.mallocObjTypes && calls.mallocObjData && calls.onSessionCreate then .success
    else .failure := by
  unfold createMaps
  cases calls.mallocObjTypes <;> cases calls.mallocObjData <;> cases calls.onSessionCreate <;> rfl

theorem connectPeers_result (hclient : calls.addsClient = true) : (connectPeers calls).2 =
    if calls.connectToSocket && (proxyAddConnection calls .server).2 && calls.mallocObjTypes &&
      calls.mallocObjData && calls.onSessionCreate then .success else .failure := by
  unfold connectPeers
  simp only [proxyAddConnection_client, hclient, Bool.not_true, Bool.false_eq_true, if_false]
  cases calls.connectToSocket with
  | false => rfl
  | true =>
      cases (proxyAddConnection calls .server).2 with
      | false => rfl
      | true => exact createMaps_result

/-- Past the early failures, and with a free entry, the function succeeds when everything does. -/
theorem createSession_result (h : ¬ calls.FailsEarly s.freeIndex) (hname : calls.mallocName = true)
    (hfree : s.freeIndex.isSome = true) :
    (createSession calls s.freeIndex).2 = (if calls.ready then .success else .failure) ∧
      (calls.ready = false → ∃ acts, (createSession calls s.freeIndex).1 = acts ++ errServerSocket) := by
  simp only [CreateCalls.FailsEarly, hname, hfree, true_and, not_or, Bool.not_eq_false] at h
  obtain ⟨hsession, hsnprintf, hclient⟩ := h
  obtain ⟨idx, hidx⟩ := Option.isSome_iff_exists.mp hfree
  have hready : calls.ready = (calls.connectToSocket && (proxyAddConnection calls .server).2 &&
      calls.mallocObjTypes && calls.mallocObjData && calls.onSessionCreate) := by
    rw [proxyAddConnection_result]
    simp only [CreateCalls.ready, hsession, hname, hsnprintf, hclient, Bool.true_and, Bool.and_assoc]
  have hpeers := connectPeers_result hclient
  rw [← hready] at hpeers
  unfold createSession
  simp only [hsession, hname, hsnprintf, hidx, Bool.not_true, Bool.false_eq_true, if_false]
  refine ⟨hpeers, fun hnot => ?_⟩
  rw [hnot] at hpeers
  obtain ⟨acts, hacts⟩ := connectPeers_failure hclient hpeers
  exact ⟨.acquire .session :: .acquire .name :: acts, by rw [hacts]; rfl⟩

/-- Without memory for the name, and without a free entry, the function does not return. -/
theorem connectClient_stuck (h : ¬ calls.FailsEarly s.freeIndex)
    (hstuck : calls.mallocName = false ∨ s.freeIndex = none) :
    (s.connectClient calls).1 = .crashed ∨ (s.connectClient calls).1 = .aborted := by
  simp only [CreateCalls.FailsEarly, not_or, Bool.not_eq_false] at h
  obtain ⟨hsession, hlate⟩ := h
  cases hname : calls.mallocName with
  | false =>
      left
      simp only [Run.connectClient, createSession, hsession, hname, Bool.not_true, Bool.not_false,
        Bool.false_eq_true, if_false, if_true]
  | true =>
      have hnone : s.freeIndex = none := hstuck.resolve_left (by rw [hname]; exact nofun)
      have hsnprintf : calls.snprintf = true := by
        by_contra hfails
        exact hlate ⟨hname, .inl (Bool.eq_false_iff.mpr hfails)⟩
      right
      simp only [Run.connectClient, createSession, hsession, hname, hsnprintf, hnone, Bool.not_true,
        Bool.false_eq_true, if_false]

theorem ready_not_early {freeIndex : Option Nat} (h : calls.ready = true) :
    ¬ calls.FailsEarly freeIndex := by
  simp only [CreateCalls.ready, Bool.and_eq_true] at h
  simp [CreateCalls.FailsEarly, h]

/-- The table of sessions changes as in a step of the loop of `proxy_run`. -/
theorem connectClient_table (calls : CreateCalls) (s : Run δ) :
    (s.connectClient calls).2.2.sessions = (s.proxyCreateSession calls.ready).sessions ∧
      (s.connectClient calls).2.2.nextSessionId =
        (s.proxyCreateSession calls.ready).nextSessionId := by
  have hsame (hnot : calls.ready = false ∨ s.freeIndex = none) :
      (s.proxyCreateSession calls.ready).sessions = s.sessions ∧
        (s.proxyCreateSession calls.ready).nextSessionId = s.nextSessionId := by
    unfold Run.proxyCreateSession
    obtain hready | hnone := hnot
    · rw [hready]
      split <;> exact ⟨rfl, rfl⟩
    · rw [hnone]
      exact ⟨rfl, rfl⟩
  have hkept (hnot : (s.connectClient calls).1 ≠ .success) :
      (s.connectClient calls).2.2.sessions = s.sessions ∧
        (s.connectClient calls).2.2.nextSessionId = s.nextSessionId := by
    cases hdid : (createSession calls s.freeIndex).2 with
    | success => exact absurd (by simp only [Run.connectClient, hdid]) hnot
    | failure => simp only [Run.connectClient, hdid, and_self]
    | aborted => simp only [Run.connectClient, hdid, and_self]
    | crashed => simp only [Run.connectClient, hdid, and_self]
  by_cases hearly : calls.FailsEarly s.freeIndex
  · have heq := connectClient_failure (createSession_early hearly).1
    have hready : calls.ready = false :=
      Bool.eq_false_iff.mpr fun hready => ready_not_early hready hearly
    rw [(hsame (.inl hready)).1, (hsame (.inl hready)).2]
    exact hkept (by rw [heq]; exact nofun)
  · by_cases hstuck : calls.mallocName = false ∨ s.freeIndex = none
    · have hends := connectClient_stuck hearly hstuck
      have hnot : calls.ready = false ∨ s.freeIndex = none :=
        hstuck.imp_left fun hname => by simp [CreateCalls.ready, hname]
      rw [(hsame hnot).1, (hsame hnot).2]
      exact hkept (by rintro hsuccess; simp [hsuccess] at hends)
    · simp only [not_or, Bool.not_eq_false] at hstuck
      have hfree : s.freeIndex.isSome = true := Option.isSome_iff_ne_none.mpr hstuck.2
      obtain ⟨hresult, -⟩ := createSession_result hearly hstuck.1 hfree
      cases hready : calls.ready with
      | true =>
          obtain ⟨idx, hidx⟩ := Option.isSome_iff_exists.mp hfree
          rw [hready] at hresult
          rw [if_pos rfl] at hresult
          simp only [Run.connectClient, hresult]
          rw [Run.proxyCreateSession, hidx]
          exact ⟨rfl, rfl⟩
      | false =>
          rw [hready] at hresult
          have heq := connectClient_failure hresult
          rw [← hready, (hsame (.inl hready)).1, (hsame (.inl hready)).2]
          exact hkept (by rw [heq]; exact nofun)

/-- When it fails, it has taken nothing, if and only if nothing fails or it fails before the
connection to the client is set up. -/
theorem failureClean_iff (calls : CreateCalls) (s : Run δ) :
    FailureClean calls s ↔
      calls.ready = true ∧ s.freeIndex.isSome = true ∨ calls.FailsEarly s.freeIndex := by
  by_cases hearly : calls.FailsEarly s.freeIndex
  · exact ⟨fun _ => .inr hearly, fun _ _ => allOrNothing_of_failsEarly hearly⟩
  · simp only [hearly, or_false]
    by_cases hstuck : calls.mallocName = false ∨ s.freeIndex = none
    · have hends := connectClient_stuck hearly hstuck
      constructor
      · intro h
        have hfails := (h (by rintro hsuccess; simp [hsuccess] at hends)).fails
        simp [hfails] at hends
      · rintro ⟨hready, hfree⟩
        obtain hname | hnone := hstuck
        · simp [CreateCalls.ready, hname] at hready
        · simp [hnone] at hfree
    · simp only [not_or, Bool.not_eq_false] at hstuck
      have hfree : s.freeIndex.isSome = true := Option.isSome_iff_ne_none.mpr hstuck.2
      obtain ⟨hresult, hacts⟩ := createSession_result hearly hstuck.1 hfree
      cases hready : calls.ready with
      | true =>
          rw [hready] at hresult
          refine ⟨fun _ => ⟨rfl, hfree⟩, fun _ hfails => absurd ?_ hfails⟩
          simp only [Run.connectClient, hresult, if_true]
      | false =>
          rw [hready] at hresult
          refine ⟨fun h => ?_, fun h => Bool.noConfusion h.1⟩
          have heq := connectClient_failure hresult
          obtain ⟨acts, heqActs⟩ := hacts hready
          have hsettles := (h (by rw [heq]; exact nofun)).settles
          rw [heq, heqActs] at hsettles
          exact absurd hsettles (not_settles_errServerSocket acts)

/-- The compositor cannot be reached. -/
def noCompositor : CreateCalls where
  zallocSession := true
  mallocName := true
  snprintf := true
  mallocConn _ := true
  wlConnectionCreate _ := true
  proxyEpollAddFd _ := true
  connectToSocket := false
  mallocObjTypes := true
  mallocObjData := true
  onSessionCreate := true

theorem descriptor_closed_twice :
    (noCompositor.connectToSocket = false ∧
      ((Run.start Unit).connectClient noCompositor).2.1.count (.release (.fd .client)) = 2) ∧
    ¬ FailureClean noCompositor (Run.start Unit) := by
  refine ⟨⟨rfl, by decide⟩, fun h => ?_⟩
  exact absurd (h (by decide)).settles (by decide)

end Stratus.Capture.Proxy
