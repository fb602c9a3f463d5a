import Stratus.Lib.History
import Stratus.Lib.Transition
import Stratus.SideCar.SessionStart

/-! A session from its start to the end of `session_teardown`: what `sidecar_main` does to it,
while its threads and its game may end between any two steps. -/
namespace Stratus.SideCar

open Stratus.Lib

inductive ThreadStatus where
  | running
  | ended
  | joined
deriving DecidableEq

inductive GameStatus where
  | running
  | ended
  | reaped
deriving DecidableEq

/-- What is done to the threads, the game and the queues, and what `session_poll` returns. -/
inductive LifeEvent where
  | cancelled (t : Thread)
  | joined (t : Thread)
  | waited
  | reaped
  | signalled
  | polled (result : Int)
  | destroyed (q : Queue)
deriving DecidableEq

/-- Where the main loop is: between its calls, in `session_poll` before one of its checks, or in
`session_teardown`. -/
inductive Place where
  | main
  | pollClient
  | pollGame
  | pollThreads (rest : List Thread)
  | terminate
  | cancel (rest : List Thread)
  | join (t : Thread) (rest : List Thread)
  | kill
  | destroy (rest : List Queue)
  | done
deriving DecidableEq

structure Life where
  threads : Thread → ThreadStatus
  game : GameStatus
  threadStates : Thread → Bool
  gamePid : Int
  place : Place
  history : List LifeEvent

/-- What happens next: a thread or the game ends, the main loop polls or breaks, or the program
takes its next step, in which a call may fail or the client's time be over. -/
inductive LifeStep where
  | threadEnds (t : Thread)
  | gameEnds
  | poll
  | breakLoop
  | proceed (fails : Bool)

namespace Life

/-- After `session_start`.  A game of Steam has been waited for, and its number is 1. -/
def start (gamePid : Int) : Life where
  threads _ := .running
  game := if gamePid = 1 then .reaped else .running
  threadStates _ := true
  gamePid := gamePid
  place := .main
  history := if gamePid = 1 then [.reaped] else []

def record (s : Life) (event : LifeEvent) : Life := { s with history := s.history ++ [event] }

def setThread (s : Life) (t : Thread) (status : ThreadStatus) : Life :=
  { s with threads := fun u => if u = t then status else s.threads u }

def clearState (s : Life) (t : Thread) : Life :=
  { s with threadStates := fun u => if u = t then false else s.threadStates u }

/-- The return of `session_poll`, after which the main loop tears the session down unless the
result is 0. -/
def returned (s : Life) (result : Int) : Life :=
  { s.record (.polled result) with place := if result = 0 then .main else .terminate }

/-- A thread that has ended is joined, with its place in the loop taken by the caller. -/
def joinThread (s : Life) (t : Thread) : Life := (s.setThread t .joined).record (.joined t)

/-- The check whether the game has exited.  `waitpid` may fail. -/
def checkGame (s : Life) (fails : Bool) : Life :=
  if s.gamePid = 1 ∨ s.gamePid = 0 then { s with gamePid := 0 }.returned 1
  else
    let s := s.record .waited
    match s.game with
    | .running => if fails then s.returned (-1) else { s with place := .pollThreads allThreads }
    | .ended =>
        if fails then s.returned (-1)
        else ({ s with game := .reaped, gamePid := 0 }.record .reaped).returned 1
    | .reaped => s.returned (-1)

/-- The check whether the thread `t` has exited. -/
def checkThread (s : Life) (fails : Bool) (t : Thread) (rest : List Thread) : Life :=
  let found (s : Life) : Life := (s.clearState t).returned (if t = .transport then 1 else -1)
  if !s.threadStates t then found s
  else if fails then s.returned (-1)
  else
    match s.threads t with
    | .running => { s with place := .pollThreads rest }
    | _ => found (s.joinThread t)

/-- `killpg`, unless there is no game of which the number is known. -/
def signalGame (s : Life) : Life :=
  if s.gamePid ≠ 0 ∧ s.gamePid ≠ 1 then s.record .signalled else s

def allQueues : List Queue := [.videoEncode, .videoTransport, .audioTransport, .input]

/-- The next step of the program; `none` when it waits for a thread, or has come to its end. -/
def proceed (s : Life) (fails : Bool) : Option Life :=
  match s.place with
  | .main => none
  | .pollClient => some (if fails then s.returned 1 else { s with place := .pollGame })
  | .pollGame => some (s.checkGame fails)
  | .pollThreads [] => some (s.returned 0)
  | .pollThreads (t :: rest) => some (s.checkThread fails t rest)
  | .terminate => some { s.signalGame with place := .cancel allThreads }
  | .cancel [] => some { s with place := .kill }
  | .cancel (t :: rest) =>
      if s.threadStates t then some { s.record (.cancelled t) with place := .join t rest }
      else some { s with place := .cancel rest }
  | .join t rest =>
      if s.threads t = .running then none
      else some { s.joinThread t with place := .cancel rest }
  | .kill => some { s.signalGame with place := .destroy allQueues }
  | .destroy [] => some { s with place := .done }
  | .destroy (q :: rest) => some { s.record (.destroyed q) with place := .destroy rest }
  | .done => none

def next (s : Life) : LifeStep → Option Life
  | .threadEnds t => if s.threads t = .running then some (s.setThread t .ended) else none
  | .gameEnds => if s.game = .running then some { s with game := .ended } else none
  | .poll => if s.place = .main then some { s with place := .pollClient } else none
  | .breakLoop => if s.place = .main then some { s with place := .terminate } else none
  | .proceed fails => s.proceed fails

def system (gamePid : Int) : Labelled Life LifeStep where
  init s := s = start gamePid
  step s step t := s.next step = some t

end Life

/-- No thread is joined twice or cancelled after that; the game is neither waited for nor
signalled once it is reaped; 0 is returned only before anything was found to have ended; and a
queue is destroyed only when all threads are joined. -/
def LifeEvent.InOrder (before : List LifeEvent) : LifeEvent → Prop
  | .cancelled t => .joined t ∉ before
  | .joined t => .joined t ∉ before
  | .waited => .reaped ∉ before
  | .reaped => .reaped ∉ before
  | .signalled => .reaped ∉ before
  | .polled result => result = 0 → .reaped ∉ before ∧ ∀ t, .joined t ∉ before
  | .destroyed _ => ∀ t, .joined t ∈ before

/-- The life of a session is in order.  When the teardown is over all threads have been joined,
once each, and it can always be brought to that. -/
structure Life.Orderly (s : Life) : Prop where
  history : Proper LifeEvent.InOrder s.history
  joined : s.place = .done → ∀ t, s.history.count (.joined t) = 1
  ends : ∃ t, Relation.ReflTransGen (fun s t => ∃ step, s.next step = some t) s t ∧ t.place = .done

namespace Life

variable {s : Life} {t : Thread} {rest : List Thread}

theorem mem_allThreads (t : Thread) : t ∈ allThreads := by cases t <;> decide

/-- The field tells whether the thread has been joined. -/
def Tracked (s : Life) (t : Thread) : Prop := s.threadStates t = true ↔ s.threads t ≠ .joined

/-- What holds wherever the program is. -/
structure Facts (s : Life) : Prop where
  history : Proper LifeEvent.InOrder s.history
  joined : ∀ t, .joined t ∈ s.history ↔ s.threads t = .joined
  reaped : .reaped ∈ s.history ↔ s.game = .reaped
  pid : s.gamePid ≠ 0 → s.gamePid ≠ 1 → s.game ≠ .reaped

/-- What holds at each place. -/
def AtPlace (s : Life) : Place → Prop
  | .main => ∀ t, s.Tracked t
  | .pollClient => ∀ t, s.Tracked t
  | .pollGame => ∀ t, s.Tracked t
  | .pollThreads rest =>
      (∀ t, s.Tracked t) ∧ s.game ≠ .reaped ∧ ∀ t, t ∉ rest → s.threads t ≠ .joined
  | .terminate => ∀ t, s.Tracked t
  | .cancel rest => rest.Nodup ∧ (∀ t ∈ rest, s.Tracked t) ∧ ∀ t, t ∉ rest → s.threads t = .joined
  | .join t rest => (t :: rest).Nodup ∧ s.threads t ≠ .joined ∧ (∀ u ∈ rest, s.Tracked u) ∧
      ∀ u, u ∉ t :: rest → s.threads u = .joined
  | .kill => ∀ t, s.threads t = .joined
  | .destroy _ => ∀ t, s.threads t = .joined
  | .done => ∀ t, s.threads t = .joined

/-- The invariant. -/
structure Inv (s : Life) : Prop where
  facts : s.Facts
  atPlace : s.AtPlace s.place

/-! ### What changes keep -/

theorem Facts.record (h : s.Facts) {event : LifeEvent} (hevent : event.InOrder s.history)
    (hjoined : ∀ t, .joined t ≠ event) (hreaped : .reaped ≠ event) : (s.record event).Facts where
  history := h.history.snoc hevent
  joined t := by
    change _ ∈ s.history ++ [event] ↔ _
    rw [List.mem_append, List.mem_singleton]
    exact (or_iff_left (hjoined t)).trans (h.joined t)
  reaped := by
    change _ ∈ s.history ++ [event] ↔ _
    rw [List.mem_append, List.mem_singleton]
    exact (or_iff_left hreaped).trans h.reaped
  pid := h.pid

theorem Facts.moveTo (h : s.Facts) (place : Place) : ({ s with place := place } : Life).Facts :=
  { h with }

theorem joined_joinThread (u : Thread) :
    (s.joinThread t).threads u = .joined ↔ u = t ∨ s.threads u = .joined := by
  rw [joinThread, Life.record, setThread]
  dsimp only
  split
  · next hu => exact ⟨fun _ => .inl hu, fun _ => rfl⟩
  · next hu => rw [or_iff_right hu]

theorem Facts.joinThread (h : s.Facts) (hthread : s.threads t ≠ .joined) : (s.joinThread t).Facts where
  history := h.history.snoc fun hmem => hthread ((h.joined t).mp hmem)
  joined u := by
    rw [joined_joinThread, ← h.joined u]
    change _ ∈ s.history ++ [LifeEvent.joined t] ↔ _
    rw [List.mem_append, List.mem_singleton, LifeEvent.joined.injEq, or_comm]
  reaped := by
    change _ ∈ s.history ++ [LifeEvent.joined t] ↔ _
    rw [List.mem_append, List.mem_singleton]
    exact (or_iff_left nofun).trans h.reaped
  pid := h.pid

/-- Another thread's bookkeeping is left alone. -/
theorem Tracked.joinThread {u : Thread} (h : s.Tracked u) (hne : u ≠ t) :
    (s.joinThread t).Tracked u := by
  have hsame : (s.joinThread t).threads u = s.threads u := if_neg hne
  unfold Tracked
  rw [hsame]
  exact h

theorem Facts.signalGame (h : s.Facts) : s.signalGame.Facts := by
  unfold Life.signalGame
  split
  · next hpid => exact h.record (mt h.reaped.mp (h.pid hpid.1 hpid.2)) nofun nofun
  · exact h

theorem threads_signalGame (s : Life) : s.signalGame.threads = s.threads := by
  unfold Life.signalGame
  split <;> rfl

theorem threadStates_signalGame (s : Life) : s.signalGame.threadStates = s.threadStates := by
  unfold Life.signalGame
  split <;> rfl

/-- The return of `session_poll`. -/
theorem Facts.returned (h : s.Facts) {result : Int} (htracked : ∀ t, s.Tracked t)
    (hzero : result = 0 → s.game ≠ .reaped ∧ ∀ t, s.threads t ≠ .joined) :
    (s.returned result).Inv := by
  have hevent : (LifeEvent.polled result).InOrder s.history := fun hresult =>
    ⟨mt h.reaped.mp (hzero hresult).1, fun t => mt (h.joined t).mp ((hzero hresult).2 t)⟩
  refine ⟨(h.record hevent nofun nofun).moveTo _, ?_⟩
  change AtPlace _ (if result = 0 then .main else .terminate)
  split
  · exact htracked
  · exact htracked

/-! ### The steps of `session_poll` -/

theorem Inv.checkGame (h : s.Inv) (hplace : s.place = .pollGame) (fails : Bool) :
    (s.checkGame fails).Inv := by
  have htracked : ∀ t, s.Tracked t := by
    have := h.atPlace
    rwa [hplace] at this
  unfold Life.checkGame
  split
  · refine Facts.returned ?_ htracked (fun hone => absurd hone (by decide))
    exact { h.facts with pid := fun hpid => absurd rfl hpid }
  · next hpid =>
    have hrunning : s.game ≠ .reaped :=
      h.facts.pid (fun hzero => hpid (.inr hzero)) (fun hone => hpid (.inl hone))
    have hwaited : (s.record .waited).Facts :=
      h.facts.record (mt h.facts.reaped.mp hrunning) nofun nofun
    have hfailed : ((s.record .waited).returned (-1)).Inv :=
      hwaited.returned htracked (fun hone => absurd hone (by decide))
    dsimp only
    cases hgame : (s.record .waited).game with
    | running =>
        dsimp only
        split
        · exact hfailed
        · rw [← hgame]
          refine ⟨hwaited.moveTo _, htracked, hrunning, ?_⟩
          exact fun t hmem => absurd (mem_allThreads t) hmem
    | ended =>
        dsimp only
        split
        · exact hfailed
        · refine Facts.returned ?_ htracked (fun hone => absurd hone (by decide))
          exact
            { history := hwaited.history.snoc (mt hwaited.reaped.mp hrunning)
              joined := fun t => by
                change _ ∈ (s.record .waited).history ++ [LifeEvent.reaped] ↔ _
                rw [List.mem_append, List.mem_singleton]
                exact (or_iff_left nofun).trans (hwaited.joined t)
              reaped := ⟨fun _ => rfl, fun _ => List.mem_append_right _ List.mem_cons_self⟩
              pid := fun hpid => absurd rfl hpid }
    | reaped => exact hfailed

theorem Inv.checkThread (h : s.Inv) (hplace : s.place = .pollThreads (t :: rest)) (fails : Bool) :
    (s.checkThread fails t rest).Inv := by
  have hat := h.atPlace
  rw [hplace] at hat
  obtain ⟨htracked, hgame, hrest⟩ := hat
  have hresult : ¬ (if t = .transport then (1 : Int) else -1) = 0 := by split <;> decide
  have hfailed : (s.returned (-1)).Inv :=
    h.facts.returned htracked (fun hone => absurd hone (by decide))
  unfold Life.checkThread
  dsimp only
  split
  · next hstate =>
    have hclear : s.clearState t = s := by
      have hfield : (fun u => if u = t then false else s.threadStates u) = s.threadStates := by
        funext u
        split
        · next hu => exact hu ▸ ((Bool.not_eq_true' _).mp hstate).symm
        · rfl
      rw [clearState, hfield]
    rw [hclear]
    exact h.facts.returned htracked (fun hzero => absurd hzero hresult)
  · next hstate =>
    have hthread : s.threads t ≠ .joined :=
      (htracked t).mp (Bool.not_eq_false _ |>.mp fun hfalse => hstate (by rw [hfalse]; rfl))
    split
    · exact hfailed
    · split
      · refine ⟨h.facts.moveTo _, htracked, hgame, fun u hu => ?_⟩
        by_cases hut : u = t
        · exact hut ▸ hthread
        · exact hrest u fun hmem => (List.mem_cons.mp hmem).elim hut hu
      · have hfacts : ((s.joinThread t).clearState t).Facts := { h.facts.joinThread hthread with }
        refine hfacts.returned (fun u => ?_) (fun hzero => absurd hzero hresult)
        by_cases hut : u = t
        · subst hut
          have hstates : ((s.joinThread u).clearState u).threadStates u = false := if_pos rfl
          have hkept : ((s.joinThread u).clearState u).threads u = .joined := if_pos rfl
          rw [Tracked, hstates, hkept]
          exact iff_of_false Bool.false_ne_true fun hne => hne rfl
        · have hstates : ((s.joinThread t).clearState t).threadStates u = s.threadStates u :=
            if_neg hut
          have hkept : ((s.joinThread t).clearState t).threads u = s.threads u := if_neg hut
          rw [Tracked, hstates, hkept]
          exact htracked u

/-! ### The steps of the program and of its surroundings -/

/-- A step of `session_teardown` that only moves on. -/
theorem Inv.moveTo (h : s.Inv) {place : Place} (hat : s.AtPlace place) :
    ({ s with place := place } : Life).Inv := by
  refine ⟨h.facts.moveTo place, ?_⟩
  cases place <;> exact hat

theorem Inv.proceed (h : s.Inv) {fails : Bool} {s' : Life} (hstep : s.proceed fails = some s') :
    s'.Inv := by
  have hat := h.atPlace
  unfold Life.proceed at hstep
  cases hplace : s.place with
  | main =>
      rw [hplace] at hstep
      cases hstep
  | pollClient =>
      rw [hplace] at hstep hat
      obtain rfl := Option.some.inj hstep
      split
      · exact h.facts.returned hat (fun hone => absurd hone (by decide))
      · exact h.moveTo hat
  | pollGame =>
      rw [hplace] at hstep
      obtain rfl := Option.some.inj hstep
      exact h.checkGame hplace fails
  | pollThreads rest =>
      rw [hplace] at hstep hat
      cases rest with
      | nil =>
          obtain rfl := Option.some.inj hstep
          exact h.facts.returned hat.1 fun _ => ⟨hat.2.1, fun t => hat.2.2 t List.not_mem_nil⟩
      | cons t rest =>
          obtain rfl := Option.some.inj hstep
          exact h.checkThread hplace fails
  | terminate =>
      rw [hplace] at hstep hat
      obtain rfl := Option.some.inj hstep
      refine ⟨h.facts.signalGame.moveTo _, by decide, fun t _ => ?_, fun t hmem => ?_⟩
      · unfold Tracked
        rw [threads_signalGame, threadStates_signalGame]
        exact hat t
      · exact absurd (mem_allThreads t) hmem
  | cancel rest =>
      rw [hplace] at hstep hat
      cases rest with
      | nil =>
          obtain rfl := Option.some.inj hstep
          exact h.moveTo fun t => hat.2.2 t List.not_mem_nil
      | cons t rest =>
          obtain ⟨hnodup, htracked, hjoined⟩ := hat
          dsimp only at hstep
          split at hstep
          · next hstate =>
            obtain rfl := Option.some.inj hstep
            have hthread := (htracked t List.mem_cons_self).mp hstate
            have hevent : (LifeEvent.cancelled t).InOrder s.history :=
              mt (h.facts.joined t).mp hthread
            refine ⟨(h.facts.record hevent nofun nofun).moveTo _, ?_⟩
            exact ⟨hnodup, hthread, fun u hu => htracked u (List.mem_cons_of_mem t hu), hjoined⟩
          · next hstate =>
            obtain rfl := Option.some.inj hstep
            refine h.moveTo ⟨hnodup.of_cons, fun u hu => htracked u (List.mem_cons_of_mem t hu), ?_⟩
            intro u hu
            by_cases hut : u = t
            · exact hut ▸ not_not.mp (mt (htracked t List.mem_cons_self).mpr hstate)
            · exact hjoined u fun hmem => (List.mem_cons.mp hmem).elim hut hu
  | join t rest =>
      rw [hplace] at hstep hat
      obtain ⟨hnodup, hthread, htracked, hjoined⟩ := hat
      dsimp only at hstep
      split at hstep
      · cases hstep
      · obtain rfl := Option.some.inj hstep
        refine ⟨(h.facts.joinThread hthread).moveTo _, hnodup.of_cons, fun u hu => ?_, fun u hu => ?_⟩
        · have hut : u ≠ t := fun heq => (List.nodup_cons.mp hnodup).1 (heq ▸ hu)
          exact (htracked u hu).joinThread hut
        · refine (joined_joinThread u).mpr ?_
          by_cases hut : u = t
          · exact .inl hut
          · exact .inr (hjoined u fun hmem => (List.mem_cons.mp hmem).elim hut hu)
  | kill =>
      rw [hplace] at hstep hat
      obtain rfl := Option.some.inj hstep
      refine ⟨h.facts.signalGame.moveTo _, fun t => ?_⟩
      rw [threads_signalGame]
      exact hat t
  | destroy rest =>
      rw [hplace] at hstep hat
      cases rest with
      | nil =>
          obtain rfl := Option.some.inj hstep
          exact h.moveTo hat
      | cons q rest =>
          obtain rfl := Option.some.inj hstep
          have hevent : (LifeEvent.destroyed q).InOrder s.history := fun t =>
            (h.facts.joined t).mpr (hat t)
          exact ⟨(h.facts.record hevent nofun nofun).moveTo _, hat⟩
  | done =>
      rw [hplace] at hstep
      cases hstep

theorem joined_setThread_ended (hrunning : s.threads t = .running) (u : Thread) :
    (s.setThread t .ended).threads u = .joined ↔ s.threads u = .joined := by
  change (if u = t then ThreadStatus.ended else s.threads u) = .joined ↔ _
  split
  · next hu =>
    rw [hu, hrunning]
    exact iff_of_false nofun nofun
  · exact Iff.rfl

/-- What ends by itself is not joined or reaped thereby. -/
theorem Inv.surroundings (h : s.Inv) {threads : Thread → ThreadStatus} {game : GameStatus}
    (hthreads : ∀ u, threads u = .joined ↔ s.threads u = .joined)
    (hgame : game = .reaped ↔ s.game = .reaped) :
    ({ s with threads := threads, game := game } : Life).Inv where
  facts :=
    { history := h.facts.history
      joined := fun u => (h.facts.joined u).trans (hthreads u).symm
      reaped := h.facts.reaped.trans hgame.symm
      pid := fun hzero hone => mt hgame.mp (h.facts.pid hzero hone) }
  atPlace := by
    have hat := h.atPlace
    change AtPlace _ s.place
    cases hplace : s.place <;> rw [hplace] at hat <;>
      simpa only [AtPlace, Tracked, hthreads, ne_eq, hgame] using hat

theorem Inv.next (h : s.Inv) {step : LifeStep} {s' : Life} (hstep : s.next step = some s') :
    s'.Inv := by
  cases step with
  | threadEnds t =>
      obtain ⟨hrunning, hs'⟩ := Option.ite_none_right_eq_some.mp hstep
      obtain rfl := Option.some.inj hs'
      exact h.surroundings (joined_setThread_ended hrunning) Iff.rfl
  | gameEnds =>
      obtain ⟨hrunning, hs'⟩ := Option.ite_none_right_eq_some.mp hstep
      obtain rfl := Option.some.inj hs'
      refine h.surroundings (fun _ => Iff.rfl) (iff_of_false nofun ?_)
      rw [hrunning]
      exact nofun
  | poll =>
      obtain ⟨hplace, hs'⟩ := Option.ite_none_right_eq_some.mp hstep
      obtain rfl := Option.some.inj hs'
      have hat := h.atPlace
      rw [hplace] at hat
      exact h.moveTo hat
  | breakLoop =>
      obtain ⟨hplace, hs'⟩ := Option.ite_none_right_eq_some.mp hstep
      obtain rfl := Option.some.inj hs'
      have hat := h.atPlace
      rw [hplace] at hat
      exact h.moveTo hat
  | proceed fails => exact h.proceed hstep

theorem Inv.start (gamePid : Int) : (start gamePid).Inv where
  facts :=
    { history := by
        change Proper _ (if gamePid = 1 then [LifeEvent.reaped] else [])
        split
        · have hevent : LifeEvent.reaped.InOrder [] := List.not_mem_nil
          exact Proper.nil.snoc hevent
        · exact Proper.nil
      joined := fun t => by
        change _ ∈ (if gamePid = 1 then [LifeEvent.reaped] else []) ↔ _
        split <;> exact iff_of_false (by simp) nofun
      reaped := by
        change LifeEvent.reaped ∈ (if gamePid = 1 then [LifeEvent.reaped] else []) ↔
          (if gamePid = 1 then GameStatus.reaped else GameStatus.running) = GameStatus.reaped
        split <;> simp
      pid := fun _ hone => by
        rw [Life.start, if_neg (show gamePid ≠ 1 from hone)]
        exact nofun }
  atPlace := fun t => iff_of_true rfl nofun

/-! ### The end of the teardown -/

/-- How far it is to the end of the teardown, on the way that breaks out of the main loop. -/
def rank (s : Life) : Nat :=
  match s.place with
  | .main => 27
  | .pollClient => 28
  | .pollGame => 28
  | .pollThreads _ => 28
  | .terminate => 26
  | .cancel rest => 3 * rest.length + 7
  | .join t rest => 3 * rest.length + (if s.threads t = .running then 9 else 8)
  | .kill => 6
  | .destroy rest => rest.length + 1
  | .done => 0

theorem rank_returned {result : Int} (hresult : result ≠ 0) : (s.returned result).rank = 26 := by
  have hplace : (s.returned result).place = .terminate := if_neg hresult
  rw [rank, hplace]

theorem rank_checkGame (s : Life) : (s.checkGame true).rank = 26 := by
  unfold Life.checkGame
  split
  · exact rank_returned (by decide)
  · dsimp only
    cases (s.record .waited).game <;> exact rank_returned (by decide)

theorem rank_checkThread (s : Life) (t : Thread) (rest : List Thread) :
    (s.checkThread true t rest).rank = 26 := by
  unfold Life.checkThread
  dsimp only
  split
  · exact rank_returned (by split <;> decide)
  · exact rank_returned (by decide)

theorem exists_nearer (s : Life) (hend : s.place ≠ .done) :
    ∃ step s', s.next step = some s' ∧ s'.rank < s.rank := by
  cases hplace : s.place with
  | main =>
      refine ⟨.breakLoop, _, if_pos hplace, ?_⟩
      simp [rank, hplace]
  | pollClient =>
      refine ⟨.proceed true, s.returned 1, by rw [next, Life.proceed, hplace]; rfl, ?_⟩
      rw [rank_returned (by decide)]
      simp [rank, hplace]
  | pollGame =>
      refine ⟨.proceed true, s.checkGame true, by rw [next, Life.proceed, hplace], ?_⟩
      rw [rank_checkGame]
      simp [rank, hplace]
  | pollThreads rest =>
      cases rest with
      | nil =>
          refine ⟨.proceed true, s.returned 0, by rw [next, Life.proceed, hplace], ?_⟩
          have hmain : (s.returned 0).place = .main := rfl
          simp [rank, hmain, hplace]
      | cons t rest =>
          refine ⟨.proceed true, s.checkThread true t rest, by rw [next, Life.proceed, hplace], ?_⟩
          rw [rank_checkThread]
          simp [rank, hplace]
  | terminate =>
      refine ⟨.proceed true, { s.signalGame with place := .cancel allThreads },
        by rw [next, Life.proceed, hplace], ?_⟩
      simp [rank, hplace, allThreads]
  | cancel rest =>
      cases rest with
      | nil =>
          refine ⟨.proceed true, { s with place := .kill }, by rw [next, Life.proceed, hplace], ?_⟩
          simp [rank, hplace]
      | cons t rest =>
          cases hstate : s.threadStates t with
          | false =>
              refine ⟨.proceed true, { s with place := .cancel rest }, ?_, ?_⟩
              · rw [next, Life.proceed, hplace]
                dsimp only
                rw [hstate]
                rfl
              · simp [rank, hplace]
          | true =>
              refine ⟨.proceed true, { s.record (.cancelled t) with place := .join t rest }, ?_, ?_⟩
              · rw [next, Life.proceed, hplace]
                dsimp only
                rw [hstate]
                rfl
              · have hlast : (if s.threads t = .running then 9 else 8) < 10 := by split <;> decide
                rw [rank, rank, hplace]
                dsimp only [List.length_cons]
                change 3 * rest.length + (if s.threads t = .running then 9 else 8) < _
                omega
  | join t rest =>
      by_cases hrunning : s.threads t = .running
      · refine ⟨.threadEnds t, s.setThread t .ended, if_pos hrunning, ?_⟩
        have hended : (s.setThread t .ended).threads t = .ended := if_pos rfl
        have hsame : (s.setThread t .ended).place = s.place := rfl
        rw [rank, hsame, rank, hplace]
        dsimp only
        rw [hended, if_pos hrunning, if_neg nofun]
        omega
      · refine ⟨.proceed true, { s.joinThread t with place := .cancel rest }, ?_, ?_⟩
        · rw [next, Life.proceed, hplace]
          exact if_neg hrunning
        · rw [rank, rank, hplace]
          dsimp only
          rw [if_neg hrunning]
          omega
  | kill =>
      refine ⟨.proceed true, { s.signalGame with place := .destroy allQueues },
        by rw [next, Life.proceed, hplace], ?_⟩
      simp [rank, hplace, allQueues]
  | destroy rest =>
      cases rest with
      | nil =>
          refine ⟨.proceed true, { s with place := .done }, by rw [next, Life.proceed, hplace], ?_⟩
          simp [rank, hplace]
      | cons q rest =>
          refine ⟨.proceed true, { s.record (.destroyed q) with place := .destroy rest },
            by rw [next, Life.proceed, hplace], ?_⟩
          rw [rank, rank, hplace]
          exact Nat.lt_succ_self _
  | done => exact absurd hplace hend

end Life

/-- In every run of a session that was started with no failure, in whatever order its threads and
its game end, what is done to them is in order. -/
theorem session_life_orderly (gamePid : Int) (trace : List LifeStep) (s : Life)
    (hs : (Life.system gamePid).Run trace s) : s.Orderly := by
  have hinv : s.Inv := by
    refine hs.always Life.Inv ?_ fun _ _ _ h hstep => h.next hstep
    rintro _ rfl
    exact .start gamePid
  refine ⟨hinv.facts.history, fun hdone t => ?_, ?_⟩
  · have hat := hinv.atPlace
    rw [hdone] at hat
    exact hinv.facts.history.count_eq_one (fun _ => id) ((hinv.facts.joined t).mpr (hat t))
  · refine @System.exists_end Life ⟨fun _ => True, fun s t => ∃ step, s.next step = some t⟩
      (fun _ => True) (fun s => s.place = .done) Life.rank (fun s _ hend => ?_) s trivial
    obtain ⟨step, s', hstep, hrank⟩ := s.exists_nearer hend
    exact ⟨s', ⟨step, hstep⟩, trivial, hrank⟩

/-- The game exits, a poll finds it, and each module ends when it is cancelled. -/
def gameExits : List LifeStep :=
  [.gameEnds, .poll, .proceed false, .proceed false, .proceed false] ++
    allThreads.flatMap (fun t => [.proceed false, .threadEnds t, .proceed false]) ++
    List.replicate 7 (.proceed false)

theorem gameExits_orderly :
    ∃ s, (Life.system 1234).Run gameExits s ∧ s.place = .done ∧ s.Orderly := by
  have hfollow : (Labelled.follow Life.next (fun _ _ => True) gameExits (.start 1234)).map
      Life.place = some .done := by decide
  obtain ⟨s, hs, hdone⟩ := Option.map_eq_some_iff.mp hfollow
  have hrun : (Life.system 1234).Run gameExits s :=
    (Labelled.Run.start rfl).follow (fun _ _ _ _ hnext => hnext) hs
  exact ⟨s, hrun, hdone, session_life_orderly 1234 gameExits s hrun⟩

end Stratus.SideCar
