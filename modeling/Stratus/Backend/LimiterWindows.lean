import Mathlib.Algebra.Order.Floor.Ring
import Mathlib.Data.Rat.Floor
import Mathlib.Tactic.Linarith
import Stratus.Backend.RateLimiter
import Stratus.Lib.Windows

/-! A limiter whose keys are its own: the requests under a key come in windows, in each of which the
first few are let through. -/
namespace Stratus.Backend

open Stratus.Lib

namespace LimiterWindows

/-- Requests to the limiter, and to other ones that count in the same map. -/
inductive CallEvent where
  | cleanup (now : Nat)
  | request (req : LimitedRequest) (now : Nat)
  | other (options : RateLimiterOptions) (req : LimitedRequest) (now : Nat)

def CallEvent.now : CallEvent → Nat
  | .cleanup now => now
  | .request _ now => now
  | .other _ _ now => now

def CallEvent.isRequest : CallEvent → Bool
  | .cleanup _ => false
  | _ => true

/-- An answer, with the key under which the request was counted. -/
structure Response where
  mine : Bool
  key : LimiterKey
  answer : LimiterAnswer
deriving DecidableEq

structure Calls where
  stores : Stores
  responses : List Response

section Limiter

variable (options : RateLimiterOptions)

def Calls.step (s : Calls) : CallEvent → Calls
  | .cleanup now => { s with stores := cleanup now s.stores }
  | .request req now =>
      let result := rateLimiter options req now s.stores
      ⟨result.1, s.responses ++ [⟨true, options.key req, result.2⟩]⟩
  | .other options' req now =>
      let result := rateLimiter options' req now s.stores
      ⟨result.1, s.responses ++ [⟨false, options'.key req, result.2⟩]⟩

def serveCalls (events : List CallEvent) : Calls := events.foldl (Calls.step options) ⟨.empty, []⟩

/-- The answers to the requests with a key. -/
def Calls.answersTo (s : Calls) (key : LimiterKey) : List LimiterAnswer :=
  s.responses.filterMap fun response =>
    if response.mine ∧ response.key = key then some response.answer else none

/-- When they came. -/
def timesOf (key : LimiterKey) (events : List CallEvent) : List Nat :=
  events.filterMap fun
    | .request req now => if options.key req = key then some now else none
    | _ => none

/-- The end of a window. -/
def resetTime (start : Nat) : Nat := start + options.windowMs

/-- What the request at place `i` of a window is answered with. -/
def answerAt (start i now : Nat) : LimiterAnswer :=
  if i < options.max then
    .next ⟨options.max, (options.max : Int) - (i + 1 : Nat), resetTime options start⟩
  else .tooMany ⌈((resetTime options start : ℚ) - now) / 1000⌉ options.message

end Limiter

/-- The events come in the order of time. -/
def Ordered (events : List CallEvent) : Prop := (events.map CallEvent.now).Pairwise (· ≤ ·)

/-- No other limiter counts under the key. -/
def Own (key : LimiterKey) (events : List CallEvent) : Prop :=
  ∀ options req now, .other options req now ∈ events → options.key req ≠ key

variable {options : RateLimiterOptions} {events : List CallEvent} {event : CallEvent}
  {key : LimiterKey} {now later : Nat}

/-! ### One more event -/

theorem serveCalls_snoc (events : List CallEvent) (event : CallEvent) :
    serveCalls options (events ++ [event]) = (serveCalls options events).step options event := by
  rw [serveCalls, List.foldl_append]
  rfl

theorem Ordered.snoc (h : Ordered (events ++ [event])) :
    Ordered events ∧ ∀ event' ∈ events, event'.now ≤ event.now := by
  rw [Ordered, List.map_append, List.pairwise_append] at h
  obtain ⟨hevents, -, hlast⟩ := h
  exact ⟨hevents, fun event' hmem => hlast _ (List.mem_map_of_mem hmem) _ List.mem_cons_self⟩

theorem get_rateLimiter_ne {req : LimitedRequest} (hne : options.key req ≠ key) (stores : Stores) :
    (rateLimiter options req now stores).1.get key = stores.get key :=
  OrderedMap.get_set_ne _ _ hne.symm

/-- `ceilSeconds` rounds up. -/
theorem ceilSeconds_eq (ms : Int) : ceilSeconds ms = ⌈(ms : ℚ) / 1000⌉ := by
  symm
  rw [Int.ceil_eq_iff, ceilSeconds]
  have hlow : 1000 * ((ms + 999) / 1000) ≤ ms + 999 := by omega
  have hhigh : ms ≤ 1000 * ((ms + 999) / 1000) := by omega
  have hlow' : (1000 : ℚ) * ((ms + 999) / 1000 : Int) ≤ ms + 999 := by exact_mod_cast hlow
  have hhigh' : (ms : ℚ) ≤ 1000 * ((ms + 999) / 1000 : Int) := by exact_mod_cast hhigh
  constructor
  · linarith
  · linarith

/-! ### Windows -/

/-- The entry of a window. -/
def entryOf (options : RateLimiterOptions) (w : Window Nat) : RateLimitEntry :=
  ⟨w.times.length, resetTime options w.start⟩

theorem entryOf_add (options : RateLimiterOptions) (w : Window Nat) (t : Nat) : entryOf options (w.add t) =
    ⟨(entryOf options w).count + 1, (entryOf options w).resetTime⟩ := by
  rw [entryOf, Window.times_add, List.length_append]
  rfl

/-- The windows of a key, what has been answered in them, and the entry that counts. -/
structure Law (options : RateLimiterOptions) (key : LimiterKey) (events : List CallEvent)
    (windows : List (Window Nat)) : Prop where
  parts : Windows (resetTime options) (timesOf options key events) windows
  answers : (serveCalls options events).answersTo key =
    windows.flatMap fun w => w.times.mapIdx (answerAt options w.start)
  entry (later : Nat) : (∀ event ∈ events, event.now ≤ later) →
    live later ((serveCalls options events).stores.get key) =
      live later (windows.getLast?.map (entryOf options))

theorem law_nil : Law options key [] [] := ⟨.nil, rfl, fun _ _ => rfl⟩

/-- An event that is no request with the key. -/
theorem Law.idle {windows : List (Window Nat)} (h : Law options key events windows)
    (htimes : timesOf options key [event] = [])
    (hanswers : (serveCalls options (events ++ [event])).answersTo key =
      (serveCalls options events).answersTo key)
    (hentry : ∀ later, event.now ≤ later →
      live later ((serveCalls options (events ++ [event])).stores.get key) =
        live later ((serveCalls options events).stores.get key)) :
    Law options key (events ++ [event]) windows where
  parts := by
    rw [timesOf, List.filterMap_append, ← timesOf, ← timesOf, htimes, List.append_nil]
    exact h.parts
  answers := hanswers.trans h.answers
  entry later hlater := by
    rw [hentry later (hlater event (List.mem_append_right _ List.mem_cons_self))]
    exact h.entry later fun event' hmem => hlater event' (List.mem_append_left _ hmem)

/-- What a request with the key does. -/
theorem request_spec {req : LimitedRequest} (hkey : options.key req = key) (events : List CallEvent)
    (now : Nat) :
    timesOf options key (events ++ [.request req now]) = timesOf options key events ++ [now] ∧
    (serveCalls options (events ++ [.request req now])).answersTo key =
      (serveCalls options events).answersTo key ++
        [(options.count now (live now ((serveCalls options events).stores.get key))).2] ∧
    (serveCalls options (events ++ [.request req now])).stores.get key =
      some (options.count now (live now ((serveCalls options events).stores.get key))).1 := by
  subst hkey
  refine ⟨?_, ?_, ?_⟩
  · simp [timesOf]
  · rw [serveCalls_snoc, ← count_live]
    simp [Calls.step, Calls.answersTo, rateLimiter]
  · rw [serveCalls_snoc, ← count_live]
    exact OrderedMap.get_set_self _ _ _

theorem le_of_mem_timesOf {time : Nat} (hbefore : ∀ event ∈ events, event.now ≤ now)
    (h : time ∈ timesOf options key events) : time ≤ now := by
  obtain ⟨event, hmem, hevent⟩ := List.mem_filterMap.mp h
  cases event with
  | request req t =>
      dsimp only at hevent
      split at hevent
      · cases hevent
        exact hbefore _ hmem
      · cases hevent
  | cleanup t => cases hevent
  | other options' req t => cases hevent

/-- The answer to one more request in a window. -/
theorem answer_eq (options : RateLimiterOptions) (w : Window Nat) (now : Nat) :
    (if options.max < (entryOf options w).count + 1 then
        LimiterAnswer.tooMany (ceilSeconds ((entryOf options w).resetTime - now)) options.message
      else .next ⟨options.max, options.max - ((entryOf options w).count + 1 : Nat),
        (entryOf options w).resetTime⟩) =
      answerAt options w.start w.times.length now := by
  have hcount : (entryOf options w).count = w.times.length := rfl
  rw [answerAt, hcount]
  by_cases hfirst : w.times.length < options.max
  · rw [if_neg (by omega), if_pos hfirst]
    rfl
  · rw [if_pos (by omega), if_neg hfirst, ceilSeconds_eq]
    push_cast
    rfl

/-- A request opens a window, or it is one more in the last. -/
theorem Law.request {windows : List (Window Nat)} (h : Law options key events windows)
    (hmax : 1 ≤ options.max) {req : LimitedRequest} (hkey : options.key req = key)
    (hbefore : ∀ event ∈ events, event.now ≤ now) :
    ∃ windows', Law options key (events ++ [.request req now]) windows' := by
  obtain ⟨htimes, hanswers, hget⟩ := request_spec hkey events now
  rw [h.entry now hbefore] at hanswers hget
  cases hlive : live now (windows.getLast?.map (entryOf options)) with
  | none =>
      rw [hlive] at hanswers hget
      refine ⟨windows ++ [⟨now, []⟩], ?_, ?_, fun later hlater => ?_⟩
      · rw [htimes]
        refine h.parts.snoc_new (Nat.le_add_right _ _) fun w hw => ?_
        by_contra hopen
        have hsome : live now (windows.getLast?.map (entryOf options)) = some (entryOf options w) := by
          rw [Option.mem_def.mp hw]
          exact live_eq_some.mpr ⟨rfl, Nat.not_lt.mp hopen⟩
        exact absurd (hlive.symm.trans hsome) nofun
      · rw [hanswers, h.answers, List.flatMap_append, List.flatMap_singleton]
        congr 1
        change [LimiterAnswer.next _] = [answerAt options now 0 now]
        rw [answerAt, if_pos (Nat.lt_of_lt_of_le Nat.zero_lt_one hmax)]
        rfl
      · rw [hget, List.getLast?_append]
        rfl
  | some e =>
      rw [hlive] at hanswers hget
      obtain ⟨hlast, hopen⟩ := live_eq_some.mp hlive
      obtain ⟨w, hw, rfl⟩ := Option.map_eq_some_iff.mp hlast
      obtain ⟨before, rfl⟩ := List.getLast?_eq_some_iff.mp hw
      rw [count_open options hopen] at hanswers hget
      refine ⟨before ++ [w.add now], ?_, ?_, fun later hlater => ?_⟩
      · rw [htimes]
        have hstart : w.start ∈ timesOf options key events := by
          rw [← h.parts.all, List.flatMap_append]
          exact List.mem_append_right _ List.mem_cons_self
        exact h.parts.snoc_add (le_of_mem_timesOf hbefore hstart) hopen
      · rw [hanswers, h.answers, List.flatMap_append, List.flatMap_append, List.append_assoc]
        congr 1
        rw [List.flatMap_singleton, List.flatMap_singleton, Window.times_add, List.mapIdx_append]
        congr 1
        rw [List.mapIdx_singleton, Nat.zero_add]
        exact congrArg (fun answer => [answer]) (answer_eq options w now)
      · rw [hget, List.getLast?_append, List.getLast?_singleton, Option.some_or, Option.map_some, entryOf_add]

theorem exists_law (hmax : 1 ≤ options.max) (hordered : Ordered events) (hown : Own key events) :
    ∃ windows, Law options key events windows := by
  induction events using List.reverseRecOn with
  | nil => exact ⟨[], law_nil⟩
  | append_singleton events event ih =>
      obtain ⟨hold, hbefore⟩ := hordered.snoc
      obtain ⟨windows, h⟩ := ih hold fun options' req now hmem =>
        hown options' req now (List.mem_append_left _ hmem)
      cases event with
      | cleanup t =>
          refine ⟨windows, h.idle rfl ?_ fun later hlater => ?_⟩
          · rw [serveCalls_snoc]
            rfl
          · rw [serveCalls_snoc]
            exact live_get_cleanup hlater _ key
      | request req t =>
          by_cases hkey : options.key req = key
          · exact h.request hmax hkey hbefore
          · refine ⟨windows, h.idle ?_ ?_ fun later _ => ?_⟩
            · simp [timesOf, hkey]
            · rw [serveCalls_snoc]
              simp [Calls.step, Calls.answersTo, hkey]
            · rw [serveCalls_snoc]
              exact congrArg (live later) (get_rateLimiter_ne hkey _)
      | other options' req t =>
          have hkey := hown options' req t (List.mem_append_right _ List.mem_cons_self)
          refine ⟨windows, h.idle rfl ?_ fun later _ => ?_⟩
          · rw [serveCalls_snoc]
            simp [Calls.step, Calls.answersTo]
          · rw [serveCalls_snoc]
            exact congrArg (live later) (get_rateLimiter_ne hkey _)

/-! ### Cleanups -/

def withoutCleanups (events : List CallEvent) : List CallEvent := events.filter CallEvent.isRequest

/-- A cleanup takes away only what counts no more. -/
structure Unseen (options : RateLimiterOptions) (events : List CallEvent) : Prop where
  responses : (serveCalls options (withoutCleanups events)).responses = (serveCalls options events).responses
  entry (key : LimiterKey) (later : Nat) : (∀ event ∈ events, event.now ≤ later) →
    live later ((serveCalls options (withoutCleanups events)).stores.get key) =
      live later ((serveCalls options events).stores.get key)

/-- Where the entries that count are the same, a request is answered and counted in the same way. -/
theorem rateLimiter_congr {req : LimitedRequest} {stores stores' : Stores} {later : Nat}
    (hnow : ∀ key, live now (stores.get key) = live now (stores'.get key))
    (hlater : ∀ key, live later (stores.get key) = live later (stores'.get key)) :
    (rateLimiter options req now stores).2 = (rateLimiter options req now stores').2 ∧
      ∀ key, live later ((rateLimiter options req now stores).1.get key) =
        live later ((rateLimiter options req now stores').1.get key) := by
  have hcount : options.count now (stores.get (options.key req)) =
      options.count now (stores'.get (options.key req)) := by
    rw [count_live, hnow, ← count_live]
  refine ⟨by rw [rateLimiter, rateLimiter, hcount], fun key => ?_⟩
  by_cases hkey : options.key req = key
  · subst hkey
    rw [rateLimiter, rateLimiter, OrderedMap.get_set_self, OrderedMap.get_set_self, hcount]
  · rw [get_rateLimiter_ne hkey, get_rateLimiter_ne hkey]
    exact hlater key

theorem unseen (hordered : Ordered events) : Unseen options events := by
  induction events using List.reverseRecOn with
  | nil => exact ⟨rfl, fun _ _ _ => rfl⟩
  | append_singleton events event ih =>
      obtain ⟨hold, hbefore⟩ := hordered.snoc
      have h := ih hold
      have hearlier (later : Nat) (hlater : ∀ event' ∈ events ++ [event], event'.now ≤ later) :
          ∀ event' ∈ events, event'.now ≤ later :=
        fun event' hmem => hlater event' (List.mem_append_left _ hmem)
      have hsnoc (hrequest : event.isRequest = true) :
          withoutCleanups (events ++ [event]) = withoutCleanups events ++ [event] := by
        simp [withoutCleanups, hrequest]
      cases event with
      | cleanup t =>
          have hsame : withoutCleanups (events ++ [.cleanup t]) = withoutCleanups events := by
            simp [withoutCleanups, CallEvent.isRequest]
          refine ⟨?_, fun key later hlater => ?_⟩
          · rw [hsame, serveCalls_snoc]
            exact h.responses
          · rw [hsame, serveCalls_snoc]
            refine (h.entry key later (hearlier later hlater)).trans (live_get_cleanup ?_ _ key).symm
            exact hlater _ (List.mem_append_right _ List.mem_cons_self)
      | request req t =>
          refine ⟨?_, fun key later hlater => ?_⟩
          · rw [hsnoc rfl, serveCalls_snoc, serveCalls_snoc, Calls.step, Calls.step, h.responses]
            rw [(rateLimiter_congr (fun key => h.entry key t hbefore) fun key => h.entry key t hbefore).1]
          · rw [hsnoc rfl, serveCalls_snoc, serveCalls_snoc]
            exact (rateLimiter_congr (fun key => h.entry key t hbefore)
              fun key => h.entry key later (hearlier later hlater)).2 key
      | other options' req t =>
          refine ⟨?_, fun key later hlater => ?_⟩
          · rw [hsnoc rfl, serveCalls_snoc, serveCalls_snoc, Calls.step, Calls.step, h.responses]
            rw [(rateLimiter_congr (fun key => h.entry key t hbefore) fun key => h.entry key t hbefore).1]
          · rw [hsnoc rfl, serveCalls_snoc, serveCalls_snoc]
            exact (rateLimiter_congr (fun key => h.entry key t hbefore)
              fun key => h.entry key later (hearlier later hlater)).2 key

/-- No client is told of a negative number. -/
def NonNegative : LimiterAnswer → Prop
  | .next headers => 0 ≤ headers.remaining
  | .tooMany retryAfter _ => 0 ≤ retryAfter

theorem nonNegative_answerAt {start i : Nat} (hopen : now ≤ resetTime options start) :
    NonNegative (answerAt options start i now) := by
  rw [answerAt]
  split
  · change 0 ≤ (options.max : Int) - (i + 1 : Nat)
    omega
  · refine Int.ceil_nonneg (div_nonneg (sub_nonneg.mpr ?_) (by norm_num))
    exact_mod_cast hopen

/-- The requests under a key of the limiter come in windows: in each the first `max` are let through,
and the others are told how long it lasts.  Cleanups make no difference. -/
theorem single_limiter (hmax : 1 ≤ options.max) (hordered : Ordered events) (hown : Own key events) :
    (∃ windows, Windows (resetTime options) (timesOf options key events) windows ∧
      (serveCalls options events).answersTo key =
        windows.flatMap fun w => w.times.mapIdx (answerAt options w.start)) ∧
    (∀ answer ∈ (serveCalls options events).answersTo key, NonNegative answer) ∧
    (serveCalls options (withoutCleanups events)).responses = (serveCalls options events).responses := by
  obtain ⟨windows, h⟩ := exists_law hmax hordered hown
  refine ⟨⟨windows, h.parts, h.answers⟩, fun answer hanswer => ?_, (unseen hordered).responses⟩
  rw [h.answers] at hanswer
  obtain ⟨w, hw, hmem⟩ := List.mem_flatMap.mp hanswer
  obtain ⟨i, hi, rfl⟩ := List.mem_mapIdx.mp hmem
  exact nonNegative_answerAt (h.parts.within w hw _ (List.getElem_mem hi)).2

/-- Five requests, one more at the end of their window, and one after it. -/
def sevenRequests : List CallEvent :=
  List.replicate 5 (.request (naming "alice") 0) ++
    [.other generalRateLimiter (naming "alice") 1, .request (naming "alice") 3600000, .cleanup 3600000,
      .request (naming "alice") 3600001]

theorem single_limiter_sevenRequests :
    ((serveCalls registerRateLimiter sevenRequests).answersTo (.text "alice")).drop 4 =
      [.next ⟨5, 0, 3600000⟩, .tooMany 0 registerRateLimiter.message, .next ⟨5, 4, 7200001⟩] ∧
    ∃ windows, Windows (resetTime registerRateLimiter)
        (timesOf registerRateLimiter (.text "alice") sevenRequests) windows ∧
      (serveCalls registerRateLimiter sevenRequests).answersTo (.text "alice") =
        windows.flatMap fun w => w.times.mapIdx (answerAt registerRateLimiter w.start) := by
  have hordered : Ordered sevenRequests := by
    unfold Ordered
    decide
  have hown : Own (.text "alice") sevenRequests := by
    intro options req now hmem
    simp only [sevenRequests, List.mem_append, List.mem_replicate, List.mem_cons, reduceCtorEq, and_false,
      false_or, or_false, CallEvent.other.injEq, List.not_mem_nil] at hmem
    obtain ⟨rfl, rfl, rfl⟩ := hmem
    decide
  exact ⟨by decide, (single_limiter (by decide) hordered hown).1⟩

end LimiterWindows

end Stratus.Backend
