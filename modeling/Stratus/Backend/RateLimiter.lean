import Stratus.Backend.LocalStore
import Stratus.Lib.OrderedMap
import Mathlib.Data.List.Induction

/-! `rateLimiter.ts`.  All limiters count in one map, whose keys are names and addresses. -/
namespace Stratus.Backend

open Stratus.Lib

/-- A key of the map.  An object in place of a name is only the same as itself. -/
inductive LimiterKey where
  | text (value : String)
  | num (value : Rat)
  | bool (value : Bool)
  | object (request : Nat)
deriving DecidableEq

/-- What the limiters read of a request; `number` tells requests apart. -/
structure LimitedRequest where
  number : Nat
  ip : Option String
  username : Option Json

structure RateLimitEntry where
  count : Nat
  resetTime : Nat

abbrev Stores := OrderedMap LimiterKey RateLimitEntry

def cleanup (now : Nat) (stores : Stores) : Stores :=
  stores.deleteWhere fun _ entry => entry.resetTime < now

structure RateLimiterOptions where
  windowMs : Nat
  max : Nat
  message : Option String
  keyGenerator : Option (LimitedRequest → LimiterKey)

/-- The numbers in the headers `X-RateLimit-Limit`, `-Remaining` and `-Reset`. -/
structure RateLimitHeaders where
  limit : Nat
  remaining : Int
  reset : Nat
deriving DecidableEq

/-- The request goes on, or it is answered with 429. -/
inductive LimiterAnswer where
  | next (headers : RateLimitHeaders)
  | tooMany (retryAfter : Int) (error : Option String)
deriving DecidableEq

/-- `req.ip || "unknown"`. -/
def addressKey (req : LimitedRequest) : LimiterKey := .text (orText req.ip "unknown")

def RateLimiterOptions.key (options : RateLimiterOptions) (req : LimitedRequest) : LimiterKey :=
  match options.keyGenerator with
  | some keyGenerator => keyGenerator req
  | none => addressKey req

/-- `Math.ceil(ms / 1000)`. -/
def ceilSeconds (ms : Int) : Int := (ms + 999) / 1000

/-- What is done with the entry that is found. -/
def RateLimiterOptions.count (options : RateLimiterOptions) (now : Nat) :
    Option RateLimitEntry → RateLimitEntry × LimiterAnswer
  | none => fresh
  | some entry =>
      if entry.resetTime < now then fresh
      else
        let count := entry.count + 1
        (⟨count, entry.resetTime⟩,
          if options.max < count then
            .tooMany (ceilSeconds (entry.resetTime - now)) options.message
          else .next ⟨options.max, options.max - count, entry.resetTime⟩)
where
  fresh := (⟨1, now + options.windowMs⟩,
    .next ⟨options.max, options.max - 1, now + options.windowMs⟩)

def rateLimiter (options : RateLimiterOptions) (req : LimitedRequest) (now : Nat) (stores : Stores) :
    Stores × LimiterAnswer :=
  let key := options.key req
  let result := options.count now (stores.get key)
  (stores.set key result.1, result.2)

/-- `body.username || req.ip || "unknown"`. -/
def usernameOrAddress (req : LimitedRequest) : LimiterKey :=
  match req.username.filter Json.truthy with
  | some (.str value) => .text value
  | some (.num value) => .num value
  | some (.bool value) => .bool value
  | some _ => .object req.number
  | none => addressKey req

inductive Limiter where
  | login
  | register
  | general
deriving DecidableEq

def loginRateLimiter : RateLimiterOptions where
  windowMs := 15 * 60 * 1000
  max := 20
  message := some "Too many login attempts, please try again after 15 minutes."
  keyGenerator := some usernameOrAddress

def registerRateLimiter : RateLimiterOptions where
  windowMs := 60 * 60 * 1000
  max := 5
  message := some "Too many registration attempts, please try again later."
  keyGenerator := some usernameOrAddress

def generalRateLimiter : RateLimiterOptions where
  windowMs := 15 * 60 * 1000
  max := 100
  message := some "Too many requests, please try again later."
  keyGenerator := none

def Limiter.options : Limiter → RateLimiterOptions
  | .login => loginRateLimiter
  | .register => registerRateLimiter
  | .general => generalRateLimiter

inductive LimiterEvent where
  | cleanup (now : Nat)
  | request (limiter : Limiter) (req : LimitedRequest) (now : Nat)

def LimiterEvent.now : LimiterEvent → Nat
  | .cleanup now => now
  | .request _ _ now => now

/-- The map, and what has been answered so far. -/
structure Served where
  stores : Stores
  answers : List (Limiter × LimiterAnswer)

def Served.step (s : Served) : LimiterEvent → Served
  | .cleanup now => { s with stores := cleanup now s.stores }
  | .request limiter req now =>
      let result := rateLimiter limiter.options req now s.stores
      ⟨result.1, s.answers ++ [(limiter, result.2)]⟩

def serve (events : List LimiterEvent) : Served := events.foldl Served.step ⟨.empty, []⟩

/-- The answers of one limiter. -/
def Served.answersOf (s : Served) (limiter : Limiter) : List LimiterAnswer :=
  s.answers.filterMap fun answer => if answer.1 = limiter then some answer.2 else none

/-! ### One limiter by itself -/

/-- The requests of one limiter, with all cleanups. -/
def only (limiter : Limiter) (events : List LimiterEvent) : List LimiterEvent :=
  events.filter fun
    | .cleanup _ => true
    | .request limiter' _ _ => limiter' = limiter

/-- What is told to the client: whether the request is accepted, and the headers. -/
def LimiterAnswer.headers : LimiterAnswer → Option RateLimitHeaders
  | .next headers => some headers
  | .tooMany _ _ => none

/-- Every limiter answers as if only its own requests had come. -/
def Independent (events : List LimiterEvent) : Prop :=
  ∀ limiter, ((serve events).answersOf limiter).map LimiterAnswer.headers =
    ((serve (only limiter events)).answersOf limiter).map LimiterAnswer.headers

/-- When the window ends that the requests of a limiter with some key have opened last. -/
def windowEnd (limiter : Limiter) (key : LimiterKey) (events : List LimiterEvent) : Option Nat :=
  events.foldl
    (fun last event =>
      match event with
      | .cleanup _ => last
      | .request limiter' req now =>
          if limiter' = limiter ∧ limiter.options.key req = key then
            match last with
            | some reset => if reset < now then some (now + limiter.options.windowMs) else some reset
            | none => some (now + limiter.options.windowMs)
          else last)
    none

/-- The key of the request has no window of another limiter that is open. -/
def Clear (before : List LimiterEvent) : LimiterEvent → Prop
  | .cleanup _ => True
  | .request limiter req now => ∀ limiter' ≠ limiter, ∀ reset,
      windowEnd limiter' (limiter.options.key req) before = some reset → reset < now

/-- No request falls into a window of another limiter. -/
def Apart (events : List LimiterEvent) : Prop :=
  ∀ before event, before ++ [event] <+: events → Clear before event

/-- The events come in the order of time. -/
def Timed (events : List LimiterEvent) : Prop :=
  (events.map LimiterEvent.now).Pairwise (· ≤ ·)

/-! ### Entries that count -/

/-- The entry, if its window has not ended. -/
def live (now : Nat) (entry : Option RateLimitEntry) : Option RateLimitEntry :=
  entry.filter fun entry => now ≤ entry.resetTime

theorem live_eq_some {now : Nat} {entry : Option RateLimitEntry} {e : RateLimitEntry} :
    live now entry = some e ↔ entry = some e ∧ now ≤ e.resetTime := by
  rw [live, Option.filter_eq_some_iff, decide_eq_true_eq]

theorem live_live {now later : Nat} (hle : now ≤ later) (entry : Option RateLimitEntry) :
    live later (live now entry) = live later entry := by
  ext e
  simp only [live_eq_some]
  constructor
  · exact fun ⟨⟨hentry, _⟩, hlive⟩ => ⟨hentry, hlive⟩
  · exact fun ⟨hentry, hlive⟩ => ⟨⟨hentry, by omega⟩, hlive⟩

theorem live_none_of_le {now later : Nat} (hle : now ≤ later) {entry : Option RateLimitEntry}
    (h : live now entry = none) : live later entry = none := by
  rw [← live_live hle, h]
  rfl

theorem count_open (options : RateLimiterOptions) {now : Nat} {e : RateLimitEntry}
    (h : now ≤ e.resetTime) :
    options.count now (some e) = (⟨e.count + 1, e.resetTime⟩,
      if options.max < e.count + 1 then
        .tooMany (ceilSeconds (e.resetTime - now)) options.message
      else .next ⟨options.max, options.max - (e.count + 1 : Nat), e.resetTime⟩) :=
  if_neg (Nat.not_lt.mpr h)

/-- An entry whose window has ended is as good as none. -/
theorem count_live (options : RateLimiterOptions) (now : Nat) (entry : Option RateLimitEntry) :
    options.count now entry = options.count now (live now entry) := by
  cases entry with
  | none => rfl
  | some e =>
      by_cases hended : e.resetTime < now
      · have hnone : live now (some e) = none := by
          simp [live, hended]
        rw [hnone]
        exact if_pos hended
      · have hsome : live now (some e) = some e := live_eq_some.mpr ⟨rfl, Nat.not_lt.mp hended⟩
        rw [hsome]

theorem live_get_cleanup {now later : Nat} (hle : now ≤ later) (stores : Stores) (key : LimiterKey) :
    live later ((cleanup now stores).get key) = live later (stores.get key) := by
  have hget : (cleanup now stores).get key = live now (stores.get key) := by
    rw [cleanup, OrderedMap.get_deleteWhere, live]
    congr 1
    funext e
    rw [← decide_not, decide_eq_decide, Nat.not_lt]
  rw [hget, live_live hle]

/-! ### Runs -/

section Runs

variable {events : List LimiterEvent} {event : LimiterEvent} {limiter limiter' : Limiter}
  {req : LimitedRequest} {now later : Nat} {key : LimiterKey}

theorem serve_snoc (events : List LimiterEvent) (event : LimiterEvent) :
    serve (events ++ [event]) = (serve events).step event := by
  rw [serve, List.foldl_append]
  rfl

theorem only_cleanup (limiter : Limiter) (events : List LimiterEvent) (now : Nat) :
    only limiter (events ++ [.cleanup now]) = only limiter events ++ [.cleanup now] := by
  simp [only]

theorem only_same (limiter : Limiter) (events : List LimiterEvent) (req : LimitedRequest) (now : Nat) :
    only limiter (events ++ [.request limiter req now]) =
      only limiter events ++ [.request limiter req now] := by
  simp [only]

theorem only_other (h : limiter' ≠ limiter) (events : List LimiterEvent) (req : LimitedRequest)
    (now : Nat) : only limiter (events ++ [.request limiter' req now]) = only limiter events := by
  simp [only, h]

/-- The map after a request. -/
theorem get_request (events : List LimiterEvent) (limiter : Limiter) (req : LimitedRequest) (now : Nat)
    (key : LimiterKey) :
    (serve (events ++ [.request limiter req now])).stores.get key =
      if key = limiter.options.key req then
        some (limiter.options.count now ((serve events).stores.get key)).1
      else (serve events).stores.get key := by
  rw [serve_snoc, Served.step, rateLimiter]
  split
  · next hkey =>
    subst hkey
    exact OrderedMap.get_set_self _ _ _
  · next hkey => exact OrderedMap.get_set_ne _ _ hkey

theorem get_cleanup (events : List LimiterEvent) (hle : now ≤ later) (key : LimiterKey) :
    live later ((serve (events ++ [.cleanup now])).stores.get key) =
      live later ((serve events).stores.get key) := by
  rw [serve_snoc]
  exact live_get_cleanup hle _ key

theorem answersOf_cleanup (events : List LimiterEvent) (now : Nat) (limiter : Limiter) :
    (serve (events ++ [.cleanup now])).answersOf limiter = (serve events).answersOf limiter := by
  rw [serve_snoc]
  rfl

theorem answersOf_same (events : List LimiterEvent) (limiter : Limiter) (req : LimitedRequest)
    (now : Nat) :
    (serve (events ++ [.request limiter req now])).answersOf limiter =
      (serve events).answersOf limiter ++
        [(limiter.options.count now ((serve events).stores.get (limiter.options.key req))).2] := by
  rw [serve_snoc]
  simp [Served.step, Served.answersOf, rateLimiter]

theorem answersOf_other (h : limiter' ≠ limiter) (events : List LimiterEvent) (req : LimitedRequest)
    (now : Nat) :
    (serve (events ++ [.request limiter' req now])).answersOf limiter =
      (serve events).answersOf limiter := by
  rw [serve_snoc]
  simp [Served.step, Served.answersOf, rateLimiter, h]

theorem windowEnd_snoc (limiter : Limiter) (key : LimiterKey) (events : List LimiterEvent)
    (limiter' : Limiter) (req : LimitedRequest) (now : Nat) :
    windowEnd limiter key (events ++ [.request limiter' req now]) =
      if limiter' = limiter ∧ limiter.options.key req = key then
        some (((windowEnd limiter key events).filter (now ≤ ·)).getD (now + limiter.options.windowMs))
      else windowEnd limiter key events := by
  rw [windowEnd, List.foldl_append]
  change (if _ then _ else windowEnd limiter key events) = _
  split
  · change (match windowEnd limiter key events with | some reset => _ | none => _) = _
    cases windowEnd limiter key events with
    | none => rfl
    | some reset =>
        dsimp only
        by_cases hended : reset < now
        · rw [if_pos hended, Option.filter_some, if_neg (by simpa using hended)]
          rfl
        · rw [if_neg hended, Option.filter_some, if_pos (by simpa using hended)]
          rfl
  · rfl

/-- When the counted entry ends. -/
theorem resetTime_count (options : RateLimiterOptions) (now : Nat) (entry : Option RateLimitEntry) :
    (options.count now entry).1.resetTime =
      ((live now entry).map RateLimitEntry.resetTime).getD (now + options.windowMs) := by
  rw [count_live]
  cases hlive : live now entry with
  | none => rfl
  | some e =>
      rw [count_open options (live_eq_some.mp hlive).2]
      rfl

/-- No event is later than `now`. -/
def Until (events : List LimiterEvent) (now : Nat) : Prop := ∀ event ∈ events, event.now ≤ now

theorem Until.snoc (h : Until (events ++ [event]) now) : Until events now ∧ event.now ≤ now :=
  ⟨fun event' hmem => h event' (List.mem_append_left _ hmem), h event (by simp)⟩

theorem Timed.snoc (h : Timed (events ++ [event])) : Timed events ∧ Until events event.now := by
  rw [Timed, List.map_append, List.pairwise_append] at h
  obtain ⟨hevents, -, hlast⟩ := h
  exact ⟨hevents, fun event' hmem => hlast _ (List.mem_map_of_mem hmem) _ (.head _)⟩

/-- A limiter by itself has an entry that counts while the window of its requests is open. -/
theorem live_only (limiter : Limiter) (key : LimiterKey) (htimed : Timed events)
    (huntil : Until events now) :
    (live now ((serve (only limiter events)).stores.get key)).map RateLimitEntry.resetTime =
      (windowEnd limiter key events).filter (now ≤ ·) := by
  induction events using List.reverseRecOn generalizing now with
  | nil => rfl
  | append_singleton events event ih =>
      obtain ⟨hold, hbefore⟩ := htimed.snoc
      obtain ⟨hle, hnow⟩ := huntil.snoc
      cases event with
      | cleanup t =>
          rw [only_cleanup, get_cleanup _ (show t ≤ now from hnow), ih hold hle, windowEnd, windowEnd,
            List.foldl_append]
          rfl
      | request limiter' req t =>
          rw [windowEnd_snoc]
          by_cases hlimiter : limiter' = limiter
          · subst hlimiter
            rw [only_same, get_request]
            by_cases hkey : key = limiter'.options.key req
            · rw [if_pos hkey, if_pos ⟨rfl, hkey.symm⟩, ← ih hold (show Until events t from hbefore),
                ← resetTime_count, live, Option.filter_some, Option.filter_some]
              split <;> rfl
            · rw [if_neg hkey, if_neg (fun h => hkey h.2.symm), ih hold hle]
          · rw [only_other hlimiter, if_neg (fun h => hlimiter h.1), ih hold hle]

/-- The map of all limiters and the maps of each by itself. -/
structure Agree (events : List LimiterEvent) (now : Nat) : Prop where
  shared : ∀ key e, live now ((serve events).stores.get key) = some e ↔
    ∃ limiter, live now ((serve (only limiter events)).stores.get key) = some e
  unique : ∀ key limiter limiter' e e',
    live now ((serve (only limiter events)).stores.get key) = some e →
    live now ((serve (only limiter' events)).stores.get key) = some e' → limiter = limiter'

theorem agree_nil (now : Nat) : Agree [] now where
  shared := by simp [serve, only, live]
  unique := by simp [serve, only, live]

theorem Agree.cleanup (h : Agree events later) (hle : now ≤ later) :
    Agree (events ++ [.cleanup now]) later := by
  refine ⟨fun key e => ?_, fun key limiter limiter' e e' => ?_⟩
  · simp only [only_cleanup, get_cleanup _ hle]
    exact h.shared key e
  · simp only [only_cleanup, get_cleanup _ hle]
    exact h.unique key limiter limiter' e e'

/-- The window of another limiter has ended, so it has no entry that counts. -/
theorem Clear.live_none (htimed : Timed events) (huntil : Until events now)
    (hclear : Clear events (.request limiter req now)) (hne : limiter' ≠ limiter) :
    live now ((serve (only limiter' events)).stores.get (limiter.options.key req)) = none := by
  have hwindow := live_only limiter' (limiter.options.key req) htimed huntil
  rw [← Option.map_eq_none_iff, hwindow, Option.filter_eq_none_iff]
  intro reset hreset
  have hended := hclear limiter' hne reset hreset
  simpa using hended

/-- The entry that counts is that of the limiter itself. -/
theorem Agree.live_eq (h : Agree events now)
    (hnone : ∀ limiter' ≠ limiter, live now ((serve (only limiter' events)).stores.get key) = none) :
    live now ((serve events).stores.get key) =
      live now ((serve (only limiter events)).stores.get key) := by
  ext e
  rw [h.shared key e]
  constructor
  · rintro ⟨limiter', hlive⟩
    by_cases hne : limiter' = limiter
    · exact hne ▸ hlive
    · rw [hnone limiter' hne] at hlive
      cases hlive
  · exact fun hlive => ⟨limiter, hlive⟩

theorem Agree.request (hnow : Agree events now) (h : Agree events later) (hle : now ≤ later)
    (hnone : ∀ limiter' ≠ limiter,
      live now ((serve (only limiter' events)).stores.get (limiter.options.key req)) = none) :
    Agree (events ++ [.request limiter req now]) later := by
  have hsame : (serve (events ++ [.request limiter req now])).stores.get (limiter.options.key req) =
      (serve (only limiter (events ++ [.request limiter req now]))).stores.get
        (limiter.options.key req) := by
    rw [only_same, get_request, get_request, if_pos rfl, if_pos rfl, count_live, hnow.live_eq hnone,
      ← count_live]
  have hother {limiter' : Limiter} (hne : limiter' ≠ limiter) :
      live later ((serve (only limiter' (events ++ [.request limiter req now]))).stores.get
        (limiter.options.key req)) = none := by
    rw [only_other (Ne.symm hne)]
    exact live_none_of_le hle (hnone limiter' hne)
  have hrest {key : LimiterKey} (hkey : key ≠ limiter.options.key req) :
      (serve (events ++ [.request limiter req now])).stores.get key = (serve events).stores.get key ∧
        ∀ limiter', (serve (only limiter' (events ++ [.request limiter req now]))).stores.get key =
          (serve (only limiter' events)).stores.get key := by
    refine ⟨by rw [get_request, if_neg hkey], fun limiter' => ?_⟩
    by_cases hne : limiter' = limiter
    · rw [hne, only_same, get_request, if_neg hkey]
    · rw [only_other (Ne.symm hne)]
  refine ⟨fun key e => ?_, fun key limiter₁ limiter₂ e₁ e₂ h₁ h₂ => ?_⟩
  · by_cases hkey : key = limiter.options.key req
    · subst hkey
      rw [hsame]
      constructor
      · exact fun hlive => ⟨limiter, hlive⟩
      · rintro ⟨limiter', hlive⟩
        by_cases hne : limiter' = limiter
        · exact hne ▸ hlive
        · rw [hother hne] at hlive
          cases hlive
    · simp only [(hrest hkey).1, (hrest hkey).2]
      exact h.shared key e
  · by_cases hkey : key = limiter.options.key req
    · subst hkey
      have honly {limiter' : Limiter} {e : RateLimitEntry} (hlive : live later ((serve (only limiter'
          (events ++ [.request limiter req now]))).stores.get (limiter.options.key req)) = some e) :
          limiter' = limiter := by
        by_contra hne
        rw [hother hne] at hlive
        cases hlive
      rw [honly h₁, honly h₂]
    · rw [(hrest hkey).2] at h₁ h₂
      exact h.unique key limiter₁ limiter₂ e₁ e₂ h₁ h₂

theorem Apart.snoc : Apart (events ++ [event]) ↔ Apart events ∧ Clear events event := by
  constructor
  · intro h
    refine ⟨fun before event' hpre => h before event' ?_, h events event (List.prefix_refl _)⟩
    exact hpre.trans (List.prefix_append _ _)
  · rintro ⟨h, hclear⟩ before event' hpre
    rcases List.prefix_concat_iff.mp hpre with heq | hpre
    · obtain ⟨rfl, rfl⟩ := List.append_singleton_inj.mp heq
      exact hclear
    · exact h before event' hpre

theorem Apart.agree (htimed : Timed events) (huntil : Until events now) (h : Apart events) :
    Agree events now := by
  induction events using List.reverseRecOn generalizing now with
  | nil => exact agree_nil now
  | append_singleton events event ih =>
      obtain ⟨hold, hbefore⟩ := htimed.snoc
      obtain ⟨hle, hnow⟩ := huntil.snoc
      obtain ⟨hapart, hclear⟩ := Apart.snoc.mp h
      cases event with
      | cleanup t => exact (ih hold hle hapart).cleanup hnow
      | request limiter req t =>
          exact (ih hold hbefore hapart).request (ih hold hle hapart) hnow
            fun limiter' hne => hclear.live_none hold hbefore hne

/-! ### Independence -/

theorem Independent.cleanup : Independent (events ++ [.cleanup now]) ↔ Independent events := by
  simp only [Independent, only_cleanup, answersOf_cleanup]

theorem Independent.request :
    Independent (events ++ [.request limiter req now]) ↔ Independent events ∧
      (limiter.options.count now ((serve events).stores.get (limiter.options.key req))).2.headers =
        (limiter.options.count now
          ((serve (only limiter events)).stores.get (limiter.options.key req))).2.headers := by
  constructor
  · intro h
    have hself := h limiter
    rw [only_same, answersOf_same, answersOf_same, List.map_append, List.map_append] at hself
    obtain ⟨hold, hnew⟩ := List.append_singleton_inj.mp hself
    refine ⟨fun limiter' => ?_, hnew⟩
    by_cases hne : limiter = limiter'
    · exact hne ▸ hold
    · have hother := h limiter'
      rwa [only_other hne, answersOf_other hne] at hother
  · rintro ⟨hold, hnew⟩ limiter'
    by_cases hne : limiter = limiter'
    · subst hne
      rw [only_same, answersOf_same, answersOf_same, List.map_append, List.map_append]
      exact List.append_singleton_inj.mpr ⟨hold limiter, hnew⟩
    · rw [only_other hne, answersOf_other hne]
      exact hold limiter'

theorem count_pos (options : RateLimiterOptions) (now : Nat) (entry : Option RateLimitEntry) :
    1 ≤ (options.count now entry).1.count := by
  cases entry with
  | none => exact Nat.le_refl 1
  | some e =>
      rw [RateLimiterOptions.count]
      split
      · exact Nat.le_refl 1
      · exact Nat.le_add_left 1 e.count

theorem stores_count_pos {e : RateLimitEntry} (h : (serve events).stores.get key = some e) :
    1 ≤ e.count := by
  induction events using List.reverseRecOn with
  | nil => cases h
  | append_singleton events event ih =>
      cases event with
      | cleanup t =>
          rw [serve_snoc] at h
          exact ih (OrderedMap.get_deleteWhere_eq_some.mp h).1
      | request limiter req t =>
          rw [get_request] at h
          split at h
          · cases h
            exact count_pos _ _ _
          · exact ih h

/-- A request that is counted with others is answered otherwise than the first of a window. -/
theorem headers_ne {e : RateLimitEntry} (options : RateLimiterOptions) (hlive : now ≤ e.resetTime)
    (hpos : 1 ≤ e.count) :
    (options.count now (some e)).2.headers ≠ (options.count now none).2.headers := by
  rw [count_open options hlive]
  dsimp only [RateLimiterOptions.count, RateLimiterOptions.count.fresh]
  split
  · exact nofun
  · intro heq
    simp only [LimiterAnswer.headers, Option.some.injEq, RateLimitHeaders.mk.injEq] at heq
    omega

/-- A request that falls into a window of another limiter is answered otherwise than by itself. -/
theorem Agree.clear (htimed : Timed events) (huntil : Until events now) (h : Agree events now)
    (heq : (limiter.options.count now ((serve events).stores.get (limiter.options.key req))).2.headers =
      (limiter.options.count now
        ((serve (only limiter events)).stores.get (limiter.options.key req))).2.headers) :
    Clear events (.request limiter req now) := by
  intro limiter' hne reset hreset
  by_contra hopen
  have hwindow := live_only limiter' (limiter.options.key req) htimed huntil
  rw [hreset, Option.filter_some, if_pos (by simpa using hopen), Option.map_eq_some_iff] at hwindow
  obtain ⟨e, hlive, -⟩ := hwindow
  have hself : live now ((serve (only limiter events)).stores.get (limiter.options.key req)) = none := by
    by_contra hsome
    obtain ⟨e', hlive'⟩ := Option.ne_none_iff_exists'.mp hsome
    exact hne (h.unique _ _ _ _ _ hlive hlive')
  have hshared := (h.shared _ e).mpr ⟨limiter', hlive⟩
  obtain ⟨hentry, hle⟩ := live_eq_some.mp hshared
  rw [count_live, count_live _ _ ((serve (only limiter events)).stores.get _), hself, hshared] at heq
  exact headers_ne limiter.options hle (stores_count_pos hentry) heq

/-- The limiters do not touch each other exactly when no request comes with a key that has an open
window of another one. -/
theorem independent_iff_apart (events : List LimiterEvent) (htimed : Timed events) :
    Independent events ↔ Apart events := by
  induction events using List.reverseRecOn with
  | nil =>
      refine iff_of_true (fun limiter => rfl) fun before event hpre => ?_
      have hlength := hpre.length_le
      simp at hlength
  | append_singleton events event ih =>
      obtain ⟨hold, hbefore⟩ := htimed.snoc
      rw [Apart.snoc, ← ih hold]
      cases event with
      | cleanup t =>
          rw [Independent.cleanup]
          exact (and_iff_left trivial).symm
      | request limiter req t =>
          rw [Independent.request]
          refine and_congr_right fun hindependent => ?_
          have hagree : Agree events t := ((ih hold).mp hindependent).agree hold hbefore
          constructor
          · exact hagree.clear hold hbefore
          · intro hclear
            rw [count_live, hagree.live_eq fun limiter' hne => hclear.live_none hold hbefore hne,
              ← count_live]

end Runs

/-- A request that names somebody. -/
def naming (username : String) : LimitedRequest := ⟨0, some "10.0.0.1", some (.str username)⟩

/-- The second and the third request come from one address, the last has a name that was used in a
window that has ended. -/
def fourRequests : List LimiterEvent :=
  [.request .login (naming "alice") 0, .request .general (naming "alice") 1,
    .cleanup 60000, .request .general (naming "bob") 60001,
    .request .register (naming "alice") 900001]

theorem independent_iff_apart_fourRequests : Timed fourRequests ∧ Independent fourRequests ∧
    Apart fourRequests := by
  have htimed : Timed fourRequests := by
    unfold Timed
    decide
  have hindependent : Independent fourRequests := by
    intro limiter
    cases limiter <;> decide
  exact ⟨htimed, hindependent, (independent_iff_apart fourRequests htimed).mp hindependent⟩

/-- Five logins, after which nobody can register under that name. -/
def loginsThenRegister : List LimiterEvent :=
  List.replicate 5 (.request .login (naming "alice") 0) ++ [.request .register (naming "alice") 1]

theorem logins_reject_register : Timed loginsThenRegister ∧
    (serve loginsThenRegister).answersOf .register =
      [.tooMany 900 (some "Too many registration attempts, please try again later.")] ∧
    (serve (only .register loginsThenRegister)).answersOf .register = [.next ⟨5, 4, 3600001⟩] ∧
    ¬ Independent loginsThenRegister := by
  have htimed : Timed loginsThenRegister := by
    unfold Timed
    decide
  refine ⟨htimed, by decide, by decide +kernel, fun hindependent => ?_⟩
  have hregister : ((serve loginsThenRegister).answersOf .register).map LimiterAnswer.headers ≠
      ((serve (only .register loginsThenRegister)).answersOf .register).map LimiterAnswer.headers := by
    decide
  exact hregister (hindependent .register)

end Stratus.Backend
