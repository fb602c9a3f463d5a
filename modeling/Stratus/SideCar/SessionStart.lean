import Stratus.Lib.Ledger

/-! `session_start` and `session_teardown`, and what they do with the resources of a session. -/
namespace Stratus.SideCar

open Stratus.Lib

/-- `enum threads`. -/
inductive Thread where
  | capture
  | capturePw
  | audioEncoder
  | encoder
  | input
  | transport
deriving DecidableEq

/-- `thread_data`. -/
def allThreads : List Thread := [.capture, .capturePw, .audioEncoder, .encoder, .input, .transport]

inductive Queue where
  | videoEncode
  | videoTransport
  | audioTransport
  | input
deriving DecidableEq

/-- The queues that a module is given. -/
def Thread.queues : Thread → List Queue
  | .capture => [.videoEncode]
  | .capturePw => []
  | .audioEncoder => [.audioTransport]
  | .encoder => [.videoEncode, .videoTransport]
  | .input => [.input]
  | .transport => [.videoTransport, .audioTransport, .input]

inductive Resource where
  | session
  | formatMutex
  | formatCond
  | cert
  | queue (q : Queue)
  | thread (t : Thread)
deriving DecidableEq

abbrev Acts := List (Act Resource)

/-- Which pointers of a `struct session` are not `NULL`, and `thread_states`. -/
structure Fields where
  cert : Bool
  queues : List Queue
  threads : List Thread

/-- A thread is cancelled and joined. -/
def stopThread (t : Thread) : Acts := [.use (.thread t), .release (.thread t)]

/-- `session_teardown`. -/
def sessionTeardown (f : Fields) : Acts :=
  [.use .session, .use .formatMutex, .use .formatCond, .use .formatMutex] ++
    f.threads.flatMap stopThread ++ f.queues.map (fun q => .release (.queue q)) ++
    [.release .formatCond, .release .formatMutex] ++
    (if f.cert then [.release .cert] else []) ++ [.release .session]

/-! The labels of `session_start`, each with those it falls through to. -/

def errMutexInit (f : Fields) : Acts := sessionTeardown f

def errCondInit (f : Fields) : Acts := .release .formatMutex :: errMutexInit f

def errMalloc2 (f : Fields) : Acts := .release .formatCond :: errCondInit f

def errRbuf1 (f : Fields) : Acts := .release .cert :: errMalloc2 f

def errRbuf2 (f : Fields) : Acts := .release (.queue .videoEncode) :: errRbuf1 f

def errRbuf3 (f : Fields) : Acts := .release (.queue .videoTransport) :: errRbuf2 f

def errRbuf4 (f : Fields) : Acts := .release (.queue .audioTransport) :: errRbuf3 f

def errStart (f : Fields) : Acts := .release (.queue .input) :: errRbuf4 f

/-- What the calls return.  `pthreadSetname` is about a thread that was not created: whether the
assertion holds all the same.  `launchGame` is a process id or -1. -/
structure StartCalls where
  calloc : Bool
  mutexInit : Bool
  condInit : Bool
  createCertificate : Bool
  rbufInit : Queue → Bool
  pthreadCreate : Thread → Bool
  pthreadSetname : Thread → Bool
  launchGame : Int

/-- How the function ends. -/
inductive Started where
  | session
  | null
  | aborted
deriving DecidableEq

/-- The loop over the modules, and whether no assertion fails.  `pthread_create` returns an error
number, which is not negative. -/
def startThreads (calls : StartCalls) : List Thread → Acts × Bool
  | [] => ([], true)
  | t :: rest =>
      if calls.pthreadCreate t then
        let more := startThreads calls rest
        (.acquire (.thread t) :: more.1, more.2)
      else if calls.pthreadSetname t then startThreads calls rest
      else ([], false)

/-- From the modules on. -/
def startModules (calls : StartCalls) : Acts × Started :=
  let threads := startThreads calls allThreads
  if !threads.2 then (threads.1, .aborted)
  else if calls.launchGame < 0 then
    (threads.1 ++
      errStart ⟨true, [.videoEncode, .videoTransport, .audioTransport, .input], allThreads⟩, .null)
  else (threads.1, .session)

/-- From the queues on. -/
def startQueues (calls : StartCalls) : Acts × Started :=
  if !calls.rbufInit .videoEncode then (errRbuf1 ⟨true, [], []⟩, .null)
  else if !calls.rbufInit .videoTransport then
    (.acquire (.queue .videoEncode) :: errRbuf2 ⟨true, [.videoEncode], []⟩, .null)
  else if !calls.rbufInit .audioTransport then
    ([.acquire (.queue .videoEncode), .acquire (.queue .videoTransport)] ++
      errRbuf3 ⟨true, [.videoEncode, .videoTransport], []⟩, .null)
  else if !calls.rbufInit .input then
    ([.acquire (.queue .videoEncode), .acquire (.queue .videoTransport),
      .acquire (.queue .audioTransport)] ++
      errRbuf4 ⟨true, [.videoEncode, .videoTransport, .audioTransport], []⟩, .null)
  else
    let modules := startModules calls
    ([.acquire (.queue .videoEncode), .acquire (.queue .videoTransport),
      .acquire (.queue .audioTransport), .acquire (.queue .input)] ++ modules.1, modules.2)

def sessionStart (calls : StartCalls) : Acts × Started :=
  if !calls.calloc then ([], .null)
  else if !calls.mutexInit then (.acquire .session :: errMutexInit ⟨false, [], []⟩, .null)
  else if !calls.condInit then
    ([.acquire .session, .acquire .formatMutex] ++ errCondInit ⟨false, [], []⟩, .null)
  else if !calls.createCertificate then
    ([.acquire .session, .acquire .formatMutex, .acquire .formatCond] ++
      errMalloc2 ⟨false, [], []⟩, .null)
  else
    let rest := startQueues calls
    ([.acquire .session, .acquire .formatMutex, .acquire .formatCond, .acquire .cert] ++ rest.1,
      rest.2)

/-! ### What a failure should leave -/

/-- A queue is destroyed only when no module that uses it runs. -/
def QueuesIdle (acts : Acts) : Prop :=
  ∀ before after q, acts = before ++ .release (.queue q) :: after →
    ∀ held, settle before [] = some held → ∀ t, q ∈ t.queues → .thread t ∉ held

/-- No call fails. -/
def StartCalls.succeed (calls : StartCalls) : Bool :=
  calls.calloc && calls.mutexInit && calls.condInit && calls.createCertificate &&
    [.videoEncode, .videoTransport, .audioTransport, .input].all calls.rbufInit &&
    allThreads.all calls.pthreadCreate && decide (0 ≤ calls.launchGame)

/-- When a call fails, `NULL` is returned, all that was acquired has been released once, and only
that. -/
def FailureAtomic (calls : StartCalls) : Prop :=
  calls.succeed = false →
    (sessionStart calls).2 = .null ∧ Settles [] (sessionStart calls).1 ∧
      QueuesIdle (sessionStart calls).1

variable {calls : StartCalls}

/-! ### Every error label but the last destroys the mutex that the teardown locks -/

theorem not_settles_errCondInit (acts : Acts) (f : Fields) : ¬ Settles [] (acts ++ errCondInit f) := by
  obtain ⟨more, hmore⟩ : ∃ more, sessionTeardown f = .use .session :: .use .formatMutex :: more :=
    ⟨_, rfl⟩
  have hsplit : acts ++ errCondInit f =
      acts ++ (.release .formatMutex :: [.use .session] ++ .use .formatMutex :: more) := by
    rw [errCondInit, errMutexInit, hmore]
    rfl
  rw [Settles, hsplit, settle_reuse List.nodup_nil (by decide) (.inl rfl)]
  exact nofun

theorem startModules_null (h : (startModules calls).2 = .null) :
    ∃ acts f, (startModules calls).1 = acts ++ errCondInit f := by
  unfold startModules at h ⊢
  dsimp only at h ⊢
  split_ifs at h ⊢
  refine ⟨(startThreads calls allThreads).1 ++ [.release (.queue .input),
    .release (.queue .audioTransport), .release (.queue .videoTransport),
    .release (.queue .videoEncode), .release .cert, .release .formatCond],
    ⟨true, [.videoEncode, .videoTransport, .audioTransport, .input], allThreads⟩, ?_⟩
  rw [List.append_assoc]
  rfl

theorem startQueues_null (h : (startQueues calls).2 = .null) :
    ∃ acts f, (startQueues calls).1 = acts ++ errCondInit f := by
  unfold startQueues at h ⊢
  dsimp only at h ⊢
  split_ifs at h ⊢
  · exact ⟨[.release .cert, .release .formatCond], _, rfl⟩
  · exact ⟨[.acquire (.queue .videoEncode), .release (.queue .videoEncode), .release .cert,
      .release .formatCond], _, rfl⟩
  · exact ⟨[.acquire (.queue .videoEncode), .acquire (.queue .videoTransport),
      .release (.queue .videoTransport), .release (.queue .videoEncode), .release .cert,
      .release .formatCond], _, rfl⟩
  · exact ⟨[.acquire (.queue .videoEncode), .acquire (.queue .videoTransport),
      .acquire (.queue .audioTransport), .release (.queue .audioTransport),
      .release (.queue .videoTransport), .release (.queue .videoEncode), .release .cert,
      .release .formatCond], _, rfl⟩
  · obtain ⟨acts, f, hacts⟩ := startModules_null h
    rw [hacts, ← List.append_assoc]
    exact ⟨_, f, rfl⟩

theorem not_settles_sessionStart (hcalloc : calls.calloc = true)
    (h : (sessionStart calls).2 = .null) : ¬ Settles [] (sessionStart calls).1 := by
  unfold sessionStart at h ⊢
  simp only [hcalloc, Bool.not_true, Bool.false_eq_true, if_false] at h ⊢
  split_ifs at h ⊢
  · -- the teardown locks a mutex that was never made
    decide
  · exact not_settles_errCondInit _ _
  · exact not_settles_errCondInit
      [.acquire .session, .acquire .formatMutex, .acquire .formatCond, .release .formatCond] _
  · obtain ⟨acts, f, hacts⟩ := startQueues_null h
    rw [hacts, ← List.append_assoc]
    exact not_settles_errCondInit _ _

/-- A failure leaves nothing behind, if and only if there is none or it is that of `calloc`. -/
theorem failureAtomic_iff (calls : StartCalls) :
    FailureAtomic calls ↔ calls.succeed = true ∨ calls.calloc = false := by
  cases hcalloc : calls.calloc with
  | false =>
      refine ⟨fun _ => .inr rfl, fun _ _ => ?_⟩
      have hstart : sessionStart calls = ([], .null) := by
        rw [sessionStart, hcalloc]
        rfl
      rw [hstart]
      refine ⟨rfl, rfl, fun before after q hacts => ?_⟩
      cases before <;> cases hacts
  | true =>
      cases hsucceed : calls.succeed with
      | true => exact ⟨fun _ => .inl rfl, fun _ hfails => Bool.noConfusion (hsucceed.symm.trans hfails)⟩
      | false =>
          refine ⟨fun h => ?_, fun h => ?_⟩
          · obtain ⟨hnull, hsettles, -⟩ := h hsucceed
            exact absurd hsettles (not_settles_sessionStart hcalloc hnull)
          · obtain h | h := h <;> cases h

/-- One module thread cannot be created, and everything else succeeds. -/
def noTransportThread : StartCalls where
  calloc := true
  mutexInit := true
  condInit := true
  createCertificate := true
  rbufInit _ := true
  pthreadCreate t := t ≠ .transport
  pthreadSetname _ := true
  launchGame := 1234

/-- The game cannot be launched. -/
def noGame : StartCalls where
  calloc := true
  mutexInit := true
  condInit := true
  createCertificate := true
  rbufInit _ := true
  pthreadCreate _ := true
  pthreadSetname _ := true
  launchGame := -1

/-- Without a game the mutex is destroyed twice, and without a thread a session is returned. -/
theorem failed_starts_not_atomic :
    ((sessionStart noGame).1.count (.release .formatMutex) = 2 ∧ ¬ FailureAtomic noGame) ∧
    (sessionStart noTransportThread).2 = .session ∧ ¬ FailureAtomic noTransportThread := by
  refine ⟨⟨by decide, fun h => ?_⟩, by decide, fun h => ?_⟩
  · exact absurd (h (by decide)).2.1 (by decide)
  · exact absurd (h (by decide)).1 (by decide)

end Stratus.SideCar
