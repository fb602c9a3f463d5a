import Stratus.Backend.Accounts
import Stratus.Backend.RateLimiter

/-! How often the password of an account can be tried: `loginRateLimiter` in front of
`ControllerLoginLocal`.  The limiter counts under the name as it was sent, the lookup is made
without blanks and case. -/
namespace Stratus.Backend

open Stratus.Lib

structure LoginRequest where
  number : Nat
  ip : Option String
  body : Credentials

def LoginRequest.limited (req : LoginRequest) : LimitedRequest := ⟨req.number, req.ip, req.body.username⟩

section Accounts

variable (js : Unicode) (users : List Entry)

/-- The user whom `getUserByUsername` finds for the name in a body. -/
def resolved (username : Option Json) : Option Entry :=
  match username.filter Json.truthy with
  | some (.str username) => users.find? (hasUsername js (js.toLowerCase (js.trim username)))
  | _ => none

/-- The request names the account. -/
def LoginRequest.names (account : Nat) (req : LoginRequest) : Bool :=
  (resolved js users req.body.username).any fun user => user.ref = account

/-- `ControllerLoginLocal` comes to `verifyPassword` with the hash of the account. -/
def LoginRequest.verifies (account : Nat) (req : LoginRequest) : Bool :=
  req.body.given.isSome && (resolved js users req.body.username).any fun user =>
    user.ref = account && hasText "AuthProvider" "local" user &&
      (textOf "PasswordHash" user).any (· ≠ "")

end Accounts

/-- An interval of 15 minutes, and the passwords that were tried in it. -/
structure Interval where
  start : Nat
  attempts : Nat

def fifteenMinutes : Nat := 15 * 60 * 1000

/-- The interval goes on, or the request opens one. -/
def Interval.extend (interval : Option Interval) (now : Nat) (attempt : Bool) : Interval :=
  match interval with
  | some interval =>
      if interval.start + fifteenMinutes < now then ⟨now, attempt.toNat⟩
      else { interval with attempts := interval.attempts + attempt.toNat }
  | none => ⟨now, attempt.toNat⟩

structure Logins where
  stores : Stores
  clock : Nat
  interval : Option Interval

inductive LoginEvent where
  | cleanup (now : Nat)
  | login (req : LoginRequest) (now : Nat)

namespace Logins

section Steps

variable (js : Unicode) (users : List Entry) (account : Nat)

def next (s : Logins) : LoginEvent → Option Logins
  | .cleanup now =>
      if now < s.clock then none
      else some { s with stores := cleanup now s.stores, clock := now }
  | .login req now =>
      if now < s.clock then none
      else
        let result := rateLimiter loginRateLimiter req.limited now s.stores
        let attempt := result.2.headers.isSome && req.verifies js users account
        some
          { stores := result.1
            clock := now
            interval :=
              if req.names js users account then some (.extend s.interval now attempt)
              else s.interval }

/-- The runs in which each event is allowed. -/
def system (allowed : LoginEvent → Prop) : Labelled Logins LoginEvent where
  init s := s = ⟨.empty, 0, none⟩
  step s event t := allowed event ∧ s.next js users account event = some t

/-- Those who name the account, and only they, are counted under this key. -/
def OneSpelling (spelling : LimiterKey) : LoginEvent → Prop
  | .cleanup _ => True
  | .login req _ => req.names js users account = true ↔ usernameOrAddress req.limited = spelling

instance (spelling : LimiterKey) (event : LoginEvent) :
    Decidable (OneSpelling js users account spelling event) :=
  match event with
  | .cleanup _ => inferInstanceAs (Decidable True)
  | .login _ _ => inferInstanceAs (Decidable (_ ↔ _))

end Steps

variable {js : Unicode} {users : List Entry} {account : Nat} {spelling : LimiterKey} {s t : Logins}

/-- The entry of the spelling belongs to the interval, unless it was cleaned up after its end. -/
def Counted (spelling : LimiterKey) (s : Logins) : Prop :=
  match s.interval with
  | none => s.stores.get spelling = none
  | some interval => interval.attempts ≤ 20 ∧
      ((∃ count, s.stores.get spelling = some ⟨count, interval.start + fifteenMinutes⟩ ∧
          interval.attempts ≤ count) ∨
        (s.stores.get spelling = none ∧ interval.start + fifteenMinutes < s.clock))

theorem Counted.bound (h : Counted spelling s) {interval : Interval} (hs : s.interval = some interval) :
    interval.attempts ≤ 20 := by
  unfold Counted at h
  rw [hs] at h
  exact h.1

theorem Counted.cleanup (h : Counted spelling s) {now : Nat} (hle : s.clock ≤ now) :
    Counted spelling { s with stores := Backend.cleanup now s.stores, clock := now } := by
  unfold Counted at h ⊢
  cases hinterval : s.interval with
  | none =>
      rw [hinterval] at h
      simp only [Backend.cleanup, OrderedMap.get_deleteWhere, show s.stores.get spelling = none from h,
        Option.filter_none]
  | some interval =>
      rw [hinterval] at h
      obtain ⟨hbound, hentry⟩ := h
      refine ⟨hbound, ?_⟩
      simp only [Backend.cleanup, OrderedMap.get_deleteWhere]
      rcases hentry with ⟨count, hget, hcount⟩ | ⟨hget, hended⟩
      · rw [hget]
        by_cases hended : interval.start + fifteenMinutes < now
        · exact .inr ⟨by simp [hended], hended⟩
        · exact .inl ⟨count, by simp [hended], hcount⟩
      · rw [hget]
        exact .inr ⟨rfl, by omega⟩

/-- The first request of a window. -/
theorem extend_fresh {interval : Option Interval} {now : Nat} (attempt : Bool)
    (hended : ∀ i, interval = some i → i.start + fifteenMinutes < now) :
    Interval.extend interval now attempt = ⟨now, attempt.toNat⟩ := by
  cases interval with
  | none => rfl
  | some i => exact if_pos (hended i rfl)

/-- The limiter opens a window when an interval begins, and both have the same length. -/
theorem Counted.login (h : Counted spelling s) {now : Nat} (hle : s.clock ≤ now) (verifies : Bool) :
    let result := loginRateLimiter.count now (s.stores.get spelling)
    let interval := Interval.extend s.interval now (result.2.headers.isSome && verifies)
    result.1.resetTime = interval.start + fifteenMinutes ∧ interval.attempts ≤ result.1.count ∧
      interval.attempts ≤ 20 := by
  dsimp only
  have hopens (hnone : live now (s.stores.get spelling) = none)
      (hended : ∀ i, s.interval = some i → i.start + fifteenMinutes < now) :
      let result := loginRateLimiter.count now (s.stores.get spelling)
      let interval := Interval.extend s.interval now (result.2.headers.isSome && verifies)
      result.1.resetTime = interval.start + fifteenMinutes ∧ interval.attempts ≤ result.1.count ∧
        interval.attempts ≤ 20 := by
    dsimp only
    rw [count_live, hnone, extend_fresh _ hended]
    have hone : (((loginRateLimiter.count now none).2.headers.isSome && verifies)).toNat ≤ 1 :=
      Bool.toNat_le _
    exact ⟨rfl, hone, Nat.le_trans hone (by decide)⟩
  unfold Counted at h
  cases hinterval : s.interval with
  | none =>
      rw [hinterval] at h hopens
      refine hopens ?_ nofun
      rw [show s.stores.get spelling = none from h]
      rfl
  | some interval =>
      rw [hinterval] at h hopens
      obtain ⟨hbound, hentry⟩ := h
      by_cases hended : interval.start + fifteenMinutes < now
      · refine hopens ?_ fun i hi => ?_
        · rcases hentry with ⟨count, hget, -⟩ | ⟨hget, -⟩
          · rw [hget, live, Option.filter_some, if_neg (by simpa using hended)]
          · rw [hget]
            rfl
        · cases hi
          exact hended
      · rcases hentry with ⟨count, hget, hcount⟩ | ⟨-, hclock⟩
        · rw [hget, count_open loginRateLimiter (Nat.not_lt.mp hended)]
          simp only [Interval.extend, if_neg hended]
          by_cases hmany : loginRateLimiter.max < count + 1
          · simp only [if_pos hmany, LimiterAnswer.headers, Option.isSome_none, Bool.false_and,
              Bool.toNat_false, Nat.add_zero]
            exact ⟨trivial, by omega, hbound⟩
          · simp only [if_neg hmany, LimiterAnswer.headers, Option.isSome_some, Bool.true_and]
            have hone : verifies.toNat ≤ 1 := Bool.toNat_le verifies
            have hmax : count + 1 ≤ 20 := Nat.not_lt.mp hmany
            exact ⟨trivial, by omega, by omega⟩
        · omega

theorem Counted.next (h : Counted spelling s) {event : LoginEvent}
    (hspelling : OneSpelling js users account spelling event)
    (hnext : s.next js users account event = some t) : Counted spelling t := by
  cases event with
  | cleanup now =>
      rw [Logins.next] at hnext
      split at hnext
      · cases hnext
      · next hlt =>
        cases hnext
        exact h.cleanup (Nat.not_lt.mp hlt)
  | login req now =>
      rw [Logins.next] at hnext
      split at hnext
      · cases hnext
      · next hlt =>
        replace hlt := Nat.not_lt.mp hlt
        cases hnext
        have hkey : loginRateLimiter.key req.limited = usernameOrAddress req.limited := rfl
        by_cases hnames : req.names js users account = true
        · have hsame : loginRateLimiter.key req.limited = spelling := hkey.trans (hspelling.mp hnames)
          obtain ⟨hreset, hcount, hbound⟩ := h.login hlt (req.verifies js users account)
          simp only [Counted, hnames, if_true, rateLimiter, hsame]
          refine ⟨hbound, .inl ⟨_, ?_, hcount⟩⟩
          rw [OrderedMap.get_set_self, ← hreset]
        · have hother : spelling ≠ loginRateLimiter.key req.limited := by
            intro heq
            exact hnames (hspelling.mpr heq.symm)
          simp only [Counted, hnames, rateLimiter, OrderedMap.get_set_ne _ _ hother]
          unfold Counted at h
          cases hinterval : s.interval with
          | none =>
              rw [hinterval] at h
              exact h
          | some interval =>
              rw [hinterval] at h
              refine ⟨h.1, h.2.imp_right fun hended => ⟨hended.1, ?_⟩⟩
              have hclock := hended.2
              omega

end Logins

/-- In every run of login requests in which the account is named in one spelling, and no request
without a name comes from an address that reads like it, at most 20 passwords are tried in an
interval. -/
theorem login_attempts_le (js : Unicode) (users : List Entry) (account : Nat) (spelling : LimiterKey)
    {trace : List LoginEvent} {s : Logins}
    (hs : (Logins.system js users account
      (Logins.OneSpelling js users account spelling)).Run trace s) :
    ∀ interval, s.interval = some interval → interval.attempts ≤ 20 := by
  have h : Logins.Counted spelling s := by
    refine hs.always (Logins.Counted spelling) ?_ ?_
    · rintro s rfl
      rfl
    · rintro s event t h ⟨hspelling, hnext⟩
      exact h.next hspelling hnext
  exact fun interval hinterval => h.bound hinterval

/-- `trim` and `toLowerCase` on words of ASCII letters. -/
def asciiWords : Unicode := ⟨id, fun text => String.ofList (text.toList.map Char.toLower)⟩

def alice : Entry :=
  ⟨0, .obj [("Username", .str "alice"), ("AuthProvider", .str "local"), ("PasswordHash", .str "a:b")]⟩

def loginAs (username : String) : LoginEvent :=
  .login ⟨0, some "10.0.0.1", some (.str username), some (.text "guess"), none⟩ 0

/-- The twenty-first password is not tried. -/
theorem login_attempts_le_alice : ∃ s,
    (Logins.system asciiWords [alice] 0 (Logins.OneSpelling asciiWords [alice] 0 (.text "alice"))).Run
      (List.replicate 21 (loginAs "alice")) s ∧
    s.interval.map Interval.attempts = some 20 ∧
    ∀ interval, s.interval = some interval → interval.attempts ≤ 20 := by
  have hend : ∃ s, (Logins.system asciiWords [alice] 0
      (Logins.OneSpelling asciiWords [alice] 0 (.text "alice"))).Run
        (List.replicate 21 (loginAs "alice")) s ∧ s.interval.map Interval.attempts = some 20 :=
    Labelled.exists_run (by decide)
  obtain ⟨s, hrun, hattempts⟩ := hend
  exact ⟨s, hrun, hattempts, login_attempts_le _ _ _ _ hrun⟩

/-- It is, when the name is written with a capital letter. -/
theorem login_attempts_not_bounded : ∃ s,
    (Logins.system asciiWords [alice] 0 fun _ => True).Run
      (List.replicate 20 (loginAs "alice") ++ [loginAs "Alice"]) s ∧
    ∃ interval, s.interval = some interval ∧ interval.attempts = 21 := by
  have hend : ∃ s, (Logins.system asciiWords [alice] 0 fun _ => True).Run
      (List.replicate 20 (loginAs "alice") ++ [loginAs "Alice"]) s ∧
        s.interval.map Interval.attempts = some 21 :=
    Labelled.exists_run (by decide)
  obtain ⟨s, hrun, hattempts⟩ := hend
  obtain ⟨interval, hinterval, hcount⟩ := Option.map_eq_some_iff.mp hattempts
  exact ⟨s, hrun, interval, hinterval, hcount⟩

end Stratus.Backend
