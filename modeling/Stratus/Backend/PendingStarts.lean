import Stratus.Backend.BrokerRuns

/-! `pendingStarts` and `pendingStartSessions` of `send.ts`: two maps that are to be changed
together. -/
namespace Stratus.Backend

open Stratus.Lib

namespace Broker

/-- `pendingStartSessions` is a bijection from the sessions of the starts that are not
settled onto the keys of `pendingStarts`, and a promise is settled once, by its timer at
the latest. -/
structure Bookkeeping (b : Broker) : Prop where
  domain : ∀ sessionId, b.pendingStartSessions.has sessionId = true ↔
    ∃ start ∈ b.starts, start.results = [] ∧ start.message.sessionId = sessionId
  range : ∀ requestId, b.pendingStarts.has requestId = true ↔
    ∃ sessionId, b.pendingStartSessions.get sessionId = some requestId
  injective : ∀ sessionId sessionId' requestId,
    b.pendingStartSessions.get sessionId = some requestId →
    b.pendingStartSessions.get sessionId' = some requestId → sessionId = sessionId'
  settled : ∀ start ∈ b.starts,
    start.results.length ≤ 1 ∧ (start.timer = true → start.results.length = 1)

/-- A confirmation with the id of a request that is waited for has the id of its session
too. -/
def InStep (b : Broker) (event : Event) : Prop :=
  ∀ ws confirm requestId, b.effect event = .confirm ws confirm →
    confirm.requestId = some (.str requestId) → b.pendingStarts.has requestId = true →
    ∃ sessionId, confirm.sessionId = .str sessionId ∧
      b.pendingStartSessions.get sessionId = some requestId

/-- The sessions that are waited for. -/
def Paired (b : Broker) : Prop :=
  ∀ sessionId requestId, b.pendingStartSessions.get sessionId = some requestId ↔
    ∃ (i : Nat) (start : Start), b.starts[i]? = some start ∧
      start.message.sessionId = sessionId ∧ start.message.requestId = requestId ∧
      start.results = []

theorem Paired.bookkeeping {b : Broker} (h : Sound b) (hpaired : Paired b) : Bookkeeping b where
  domain sessionId := by
    rw [OrderedMap.has, Option.isSome_iff_exists]
    constructor
    · rintro ⟨requestId, hget⟩
      obtain ⟨i, start, hi, hs, _, hopen⟩ := (hpaired _ _).mp hget
      exact ⟨start, List.mem_of_getElem? hi, hopen, hs⟩
    · rintro ⟨start, hmem, hopen, hs⟩
      obtain ⟨i, hi⟩ := List.getElem?_of_mem hmem
      exact ⟨_, (hpaired _ _).mpr ⟨i, start, hi, hs, rfl, hopen⟩⟩
  range requestId := by
    rw [OrderedMap.has, Option.isSome_iff_exists]
    constructor
    · rintro ⟨i, hget⟩
      obtain ⟨start, hi, hr, hopen⟩ := h.pending.mp hget
      exact ⟨_, (hpaired _ _).mpr ⟨i, start, hi, rfl, hr, hopen⟩⟩
    · rintro ⟨sessionId, hget⟩
      obtain ⟨i, start, hi, _, hr, hopen⟩ := (hpaired _ _).mp hget
      exact ⟨i, h.pending.mpr ⟨start, hi, hr, hopen⟩⟩
  injective sessionId sessionId' requestId hget hget' := by
    obtain ⟨i, start, hi, rfl, hr, _⟩ := (hpaired _ _).mp hget
    obtain ⟨j, start', hj, rfl, hr', _⟩ := (hpaired _ _).mp hget'
    obtain rfl := h.request hi hj (hr.trans hr'.symm)
    rw [hi] at hj
    cases hj
    rfl
  settled start hmem := by
    obtain ⟨i, hi⟩ := List.getElem?_of_mem hmem
    obtain ⟨hle, htimer⟩ := h.once hi
    refine ⟨hle, fun hfired => ?_⟩
    have := List.length_pos_iff.mpr (htimer hfired)
    omega

theorem Paired.same {b b' : Broker} (hpaired : Paired b) (hsame : SameStarts b b') : Paired b' := by
  unfold Paired
  rw [hsame.pendingStartSessions, hsame.starts]
  exact hpaired

theorem Paired.sent {b : Broker} (hpaired : Paired b) {now : Nat} {ws : Socket} {node : NodeInfo}
    {message : StartMessage}
    (hnew : ∀ start ∈ b.starts, start.message.requestId ≠ message.requestId ∧
      start.message.sessionId ≠ message.sessionId) : Paired (b.sent now ws node message) := by
  intro sessionId requestId
  change (b.pendingStartSessions.set message.sessionId message.requestId).get sessionId = _ ↔
    ∃ (i : Nat) (start : Start), (b.starts ++ [_])[i]? = some start ∧ _
  by_cases hs : sessionId = message.sessionId
  · subst hs
    rw [OrderedMap.get_set_self]
    constructor
    · rintro ⟨rfl⟩
      exact ⟨b.starts.length, _, List.getElem?_concat_length, rfl, rfl, rfl⟩
    · rintro ⟨i, start, hi, heq, hr, hopen⟩
      rcases List.mem_append.mp (List.mem_of_getElem? hi) with hmem | hmem
      · exact absurd heq (hnew start hmem).2
      · obtain rfl := List.mem_singleton.mp hmem
        rw [← hr]
  · rw [OrderedMap.get_set_ne _ _ hs, hpaired]
    constructor
    · rintro ⟨i, start, hi, hrest⟩
      obtain ⟨hlt, _⟩ := List.getElem?_eq_some_iff.mp hi
      exact ⟨i, start, by rwa [List.getElem?_append_left hlt], hrest⟩
    · rintro ⟨i, start, hi, heq, hrest⟩
      rcases List.mem_append.mp (List.mem_of_getElem? hi) with hmem | hmem
      · obtain ⟨j, hj⟩ := List.getElem?_of_mem hmem
        exact ⟨j, start, hj, heq, hrest⟩
      · obtain rfl := List.mem_singleton.mp hmem
        exact absurd heq.symm hs

/-- A start is settled and its session is no longer waited for. -/
theorem Paired.settle {b b' : Broker} (h : Sound b) (hpaired : Paired b) {i : Nat} {start : Start}
    {result : Option ConfirmStart} {f : Start → Start} (hi : b.starts[i]? = some start)
    (hf : ∀ old : Start, (f old).message = old.message ∧ (f old).results = old.results ++ [result])
    (hstarts : b'.starts = b.starts.modify i f)
    (hpending : ∀ sessionId requestId, b'.pendingStartSessions.get sessionId = some requestId ↔
      start.message.sessionId ≠ sessionId ∧
        b.pendingStartSessions.get sessionId = some requestId) : Paired b' := by
  intro sessionId requestId
  rw [hpending, hpaired, hstarts]
  constructor
  · rintro ⟨hne, j, old, hj, rfl, hrest⟩
    have hij : i ≠ j := by
      rintro rfl
      rw [hi] at hj
      cases hj
      exact hne rfl
    exact ⟨j, old, getElem?_modify_eq_some.mpr ⟨old, hj, by rw [if_neg hij]⟩, rfl, hrest⟩
  · rintro ⟨j, new, hj, rfl, rfl, hopen⟩
    obtain ⟨old, hold, rfl⟩ := getElem?_modify_eq_some.mp hj
    by_cases hij : i = j
    · rw [if_pos hij, (hf old).2] at hopen
      exact absurd hopen (by simp)
    · rw [if_neg hij] at hopen ⊢
      exact ⟨fun heq => hij (h.session hi hold heq), j, old, hold, rfl, rfl, hopen⟩

theorem matching_cases {b : Broker} {confirm : ConfirmStart} {requestId : String}
    (hmatch : b.matching confirm = some requestId) :
    (confirm.requestId = some (.str requestId) ∧ b.pendingStarts.has requestId = true) ∨
    ∃ sessionId, confirm.sessionId = .str sessionId ∧
      b.pendingStartSessions.get sessionId = some requestId := by
  unfold matching at hmatch
  extract_lets bySession at hmatch
  have hsession (h : bySession = some requestId) :
      ∃ sessionId, confirm.sessionId = .str sessionId ∧
        b.pendingStartSessions.get sessionId = some requestId := by
    unfold bySession at h
    split at h
    · next sessionId hvalue => exact ⟨sessionId, hvalue, h⟩
    · cases h
  split at hmatch
  · next requestId' hrequest =>
    split at hmatch
    · next hhas =>
      cases hmatch
      exact .inl ⟨hrequest, hhas⟩
    · exact .inr (hsession hmatch)
  · exact .inr (hsession hmatch)

/-- The session is that of the start, whichever id it has been found by. -/
theorem session_of_matching {b : Broker} (h : Sound b) {confirm : ConfirmStart}
    (hstep : ∀ requestId, confirm.requestId = some (.str requestId) →
      b.pendingStarts.has requestId = true → ∃ sessionId, confirm.sessionId = .str sessionId ∧
        b.pendingStartSessions.get sessionId = some requestId)
    {i : Nat} {start : Start} (hi : b.starts[i]? = some start)
    (hmatch : b.matching confirm = some start.message.requestId) :
    confirm.sessionId = .str start.message.sessionId := by
  have hfound : ∃ sessionId, confirm.sessionId = .str sessionId ∧
      b.pendingStartSessions.get sessionId = some start.message.requestId := by
    rcases matching_cases hmatch with ⟨hrequest, hhas⟩ | hfound
    · exact hstep _ hrequest hhas
    · exact hfound
  obtain ⟨sessionId, hvalue, hget⟩ := hfound
  obtain ⟨j, start', hj, rfl, hr⟩ := h.pendingSession hget
  obtain rfl := h.request hj hi hr
  rw [hi] at hj
  cases hj
  exact hvalue

theorem Paired.resolveStart {b : Broker} (h : Sound b) (hpaired : Paired b) {confirm : ConfirmStart}
    (hstep : ∀ requestId, confirm.requestId = some (.str requestId) →
      b.pendingStarts.has requestId = true → ∃ sessionId, confirm.sessionId = .str sessionId ∧
        b.pendingStartSessions.get sessionId = some requestId) :
    Paired (b.resolveStart confirm) := by
  rcases resolveStart_cases h confirm with ⟨heq, _⟩ | ⟨i, start, hi, hopen, hmatch, heq⟩
  · rw [heq]
    exact hpaired
  · have hvalue := session_of_matching h hstep hi hmatch
    rw [heq]
    refine hpaired.settle h hi (f := fun old => { old with results := old.results ++ [some confirm] })
      (fun _ => ⟨rfl, rfl⟩) ?_ ?_
    · exact congrArg (fun starts => List.modify starts i _) (deletePendingSession_rest _ _).1
    · intro sessionId requestId
      refine deletePendingSession_get.trans (and_congr_left fun _ => ?_)
      rw [hvalue, ne_eq, Json.str.injEq]

theorem Paired.timeout {b : Broker} (h : Sound b) (hpaired : Paired b) (i : Nat) :
    Paired (b.timeout i) := by
  rcases timeout_cases h i with ⟨heq, _⟩ | ⟨start, hi, _, heq⟩
  · rw [heq]
    intro sessionId requestId
    rw [hpaired]
    constructor
    · rintro ⟨j, old, hj, rfl, rfl, hopen⟩
      refine ⟨j, _, getElem?_modify_eq_some.mpr ⟨old, hj, rfl⟩, ?_⟩
      split <;> exact ⟨rfl, rfl, hopen⟩
    · rintro ⟨j, new, hj, rfl, rfl, hopen⟩
      obtain ⟨old, hold, rfl⟩ := getElem?_modify_eq_some.mp hj
      refine ⟨j, old, hold, ?_⟩
      split at hopen <;> simp_all
  · rw [heq]
    refine hpaired.settle h hi
      (f := fun old => { old with results := old.results ++ [none], timer := true })
      (fun _ => ⟨rfl, rfl⟩) rfl ?_
    intro sessionId requestId
    rw [OrderedMap.get_delete_eq_some, ne_comm]

/-- One event. -/
theorem Paired.apply {b : Broker} (h : Sound b) (hpaired : Paired b) {event : Event}
    (henabled : b.Enabled event) (hstep : b.InStep event) : Paired (b.apply event) := by
  rw [apply_eq_perform]
  cases heffect : b.effect event with
  | start now message =>
      obtain rfl := effect_start heffect
      have hsweep : Paired (b.sweep now message.request.gameId) := hpaired.same (swept_starts _ _ _)
      change Paired (b.startGameSession now message).1
      rcases startGameSession_cases b now message with heq | ⟨ws, node, _, _, heq⟩
      · rw [heq]
        exact hsweep
      · rw [heq]
        refine hsweep.sent ?_
        rw [sweep, (swept_starts _ _ _).starts]
        exact henabled.2.2
  | heartbeat now ws payload => exact hpaired.same (b.updateHeartbeat_starts now ws payload)
  | confirm ws confirm =>
      exact hpaired.resolveStart h fun requestId => hstep ws confirm requestId heffect
  | ended sessionId => exact hpaired.same ⟨rfl, rfl, rfl⟩
  | disconnect ws => exact hpaired.same (b.deleteNode_starts ws)
  | timer i => exact hpaired.timeout h i
  | nothing => exact hpaired

/-- A confirmation that mixes two starts leaves the session of the one that it settles. -/
theorem not_bookkeeping_of_mixed {b : Broker} (h : Sound b) (hpaired : Paired b)
    {confirm : ConfirmStart} {requestId : String} (hrequest : confirm.requestId = some (.str requestId))
    (hhas : b.pendingStarts.has requestId = true)
    (hmixed : ∀ sessionId, confirm.sessionId = .str sessionId →
      b.pendingStartSessions.get sessionId ≠ some requestId) :
    ¬ Bookkeeping (b.resolveStart confirm) := by
  intro hbook
  have hmatch : b.matching confirm = some requestId := by simp [matching, hrequest, hhas]
  rcases resolveStart_cases h confirm with ⟨_, hnone⟩ | ⟨i, start, hi, hopen, hmatch', heq⟩
  · rw [OrderedMap.has, hnone requestId hmatch] at hhas
    cases hhas
  · obtain rfl : start.message.requestId = requestId :=
      Option.some.inj (hmatch'.symm.trans hmatch)
    have hget := (hpaired _ _).mpr ⟨i, start, hi, rfl, rfl, hopen⟩
    have hstill : (b.resolveStart confirm).pendingStartSessions.get start.message.sessionId =
        some start.message.requestId := by
      rw [heq]
      exact deletePendingSession_get.mpr ⟨fun hvalue => hmixed _ hvalue hget, hget⟩
    obtain ⟨new, hmem, hnew, hs⟩ := (hbook.domain start.message.sessionId).mp (by
      rw [OrderedMap.has, hstill, Option.isSome_some])
    obtain ⟨j, hj⟩ := List.getElem?_of_mem hmem
    have hstarts : (b.resolveStart confirm).starts = b.starts.modify i fun old =>
        { old with results := old.results ++ [some confirm] } := by
      rw [heq]
      exact congrArg (fun starts => List.modify starts i _) (deletePendingSession_rest _ _).1
    rw [hstarts] at hj
    obtain ⟨old, hold, rfl⟩ := getElem?_modify_eq_some.mp hj
    split at hnew
    · simp at hnew
    · next hij => exact hij (h.session hi hold (by rw [if_neg hij] at hs; exact hs.symm))

theorem paired_of_run {trace : List Event} {b : Broker} (hrun : (system InStep).Run trace b) :
    Paired b := by
  refine (hrun.always (fun b => Sound b ∧ Paired b) ?_ ?_).2
  · rintro _ ⟨now, rfl⟩
    exact ⟨.start now, by simp [Paired, init]⟩
  · rintro b event _ ⟨h, hpaired⟩ ⟨henabled, hstep, rfl⟩
    exact ⟨h.apply henabled, hpaired.apply h henabled hstep⟩

/-- As long as no confirmation mixes two starts the maps are in step, and the first one
that does puts them out of step. -/
theorem bookkeeping_iff_inStep {trace : List Event} {b : Broker}
    (hrun : (system InStep).Run trace b) :
    Bookkeeping b ∧ ∀ event, b.Enabled event → (Bookkeeping (b.apply event) ↔ b.InStep event) := by
  have h := sound_of_run hrun
  have hpaired := paired_of_run hrun
  refine ⟨hpaired.bookkeeping h, fun event henabled => ⟨fun hbook => ?_, fun hstep => ?_⟩⟩
  · intro ws confirm requestId heffect hrequest hhas
    by_contra hmixed
    simp only [not_exists, not_and] at hmixed
    refine not_bookkeeping_of_mixed h hpaired hrequest hhas hmixed ?_
    rwa [apply_eq_perform, heffect] at hbook
  · exact (hpaired.apply h henabled hstep).bookkeeping (h.apply henabled)

theorem bookkeeping_confirmed :
    Bookkeeping (List.foldl apply (init 0)
      (twoStarts ++ [.message 2 1 (confirmMessage "r1" "s1" "f1"), .timer 1])) := by
  refine (bookkeeping_iff_inStep (run_init ?_)).1
  refine ⟨trivial, nofun, trivial, nofun, by decide, nofun, by decide, nofun, trivial, ?_,
    by decide, nofun, trivial⟩
  rintro ws confirm requestId ⟨⟩ ⟨⟩ _
  exact ⟨"s1", rfl, by decide⟩

/-- The request of one start and the session of the other. -/
def mixedConfirmation : List Event :=
  twoStarts ++ [.message 2 1 (confirmMessage "r1" "s2" "f1")]

theorem mixed_confirmation : ¬ ∀ trace b, (system Any).Run trace b → Bookkeeping b := by
  intro hall
  have hrun : (system Any).Run mixedConfirmation (mixedConfirmation.foldl apply (init 0)) :=
    run_init (by decide)
  obtain ⟨start, hmem, hopen, hs⟩ := ((hall _ _ hrun).domain "s1").mp (by decide)
  revert start
  decide

end Broker

end Stratus.Backend
