import Stratus.Lib.IndexPool
import Stratus.Lib.OrderedMap
import Stratus.Input.LastState

/-! The loop of `inputStream.ts`: gamepads of the browser get the smallest free indexes, and give them
back when they are gone. -/
namespace Stratus.Frontend

open Stratus.Lib

namespace GamepadIndexes

/-! ### Gamepads of the browser -/

/-- `buttons` says which values are from 0.5 on, and an axis is the pattern of its value as a 32-bit
float. -/
structure Gamepad where
  index : Nat
  id : String
  connected : Bool
  buttons : List Bool
  axes : List UInt32

def ignoredGamepadIds : List String := ["stratus (Vendor: 0000 Product: 0000)"]

def isIgnoredGamepad (gamepad : Gamepad) : Bool := gamepad.id ∈ ignoredGamepadIds

/-- From what `navigator.getGamepads()` returns. -/
def getConnectedGamepads (gamepads : List (Option Gamepad)) : List Gamepad :=
  (gamepads.filterMap id).filter fun gamepad => gamepad.connected && !isIgnoredGamepad gamepad

def createGamepadState (gamepad : Gamepad) (clientIndex : Nat) (manualButtonIndices : List Nat) :
    GamepadState where
  clientIndex := clientIndex
  buttons i := gamepad.buttons.getD i false || (clientIndex = 0 && i.val ∈ manualButtonIndices)
  axes i := gamepad.axes.getD i 0

def createNeutralGamepadState (clientIndex : Nat) : GamepadState where
  clientIndex := clientIndex
  buttons _ := false
  axes _ := 0

def createVirtualManualGamepadState (manualButtonIndices : List Nat) : Option GamepadState :=
  if manualButtonIndices = [] then none
  else some { clientIndex := 0, buttons := fun i => i.val ∈ manualButtonIndices, axes := fun _ => 0 }

/-! ### The loop -/

/-- Where the loop is: `entries` are the browser indexes of `trackedGamepads` that have not been looked
at, and `rest` are the gamepads that have not. -/
inductive Phase where
  | idle
  | releasing (gamepads : List Gamepad) (entries : List Nat)
  | assigning (gamepads rest : List Gamepad)

/-- `packets` have been written, and `peak` is the largest number of gamepads that were tracked at
one time. -/
structure State where
  nextClientGamepadIndex : Nat
  availableClientGamepadIndexes : List Nat
  trackedGamepads : OrderedMap Nat Nat
  lastSentPackets : LastSentPackets
  packets : List (List UInt8)
  phase : Phase
  disposed : Bool
  peak : Nat

def releaseClientGamepadIndex (availableClientGamepadIndexes : List Nat) (clientIndex : Nat) : List Nat :=
  if clientIndex ∈ availableClientGamepadIndexes then availableClientGamepadIndexes
  else (availableClientGamepadIndexes ++ [clientIndex]).insertionSort (· ≤ ·)

namespace State

def start : State where
  nextClientGamepadIndex := 0
  availableClientGamepadIndexes := []
  trackedGamepads := .empty
  lastSentPackets _ := none
  packets := []
  phase := .idle
  disposed := false
  peak := 0

def getNextClientGamepadIndex (s : State) : Nat × State :=
  match s.availableClientGamepadIndexes with
  | [] => (s.nextClientGamepadIndex, { s with nextClientGamepadIndex := s.nextClientGamepadIndex + 1 })
  | i :: available => (i, { s with availableClientGamepadIndexes := available })

/-- `sendStateIfChanged`; `none` where it throws. -/
def send (s : State) (state : GamepadState) : Option State :=
  (sendStateIfChanged s.lastSentPackets state).map fun sent =>
    { s with packets := s.packets ++ sent.1, lastSentPackets := sent.2 }

/-- An error ends the loop. -/
def caught (s : State) : State := { s with phase := .idle, disposed := true }

def goOn (s : State) (phase : Phase) : State := { s with phase := phase }

def delete (s : State) (browserIndex clientIndex : Nat) : State :=
  { s with
    trackedGamepads := s.trackedGamepads.delete browserIndex
    availableClientGamepadIndexes :=
      releaseClientGamepadIndex s.availableClientGamepadIndexes clientIndex }

/-- The entry of a gamepad that is gone. -/
def release (s : State) (gamepads : List Gamepad) (browserIndex : Nat) (entries : List Nat) : State :=
  if browserIndex ∈ gamepads.map Gamepad.index then s.goOn (.releasing gamepads entries)
  else
    match s.trackedGamepads.get browserIndex with
    | none => s.goOn (.releasing gamepads entries)
    | some clientIndex =>
        match s.send (createNeutralGamepadState clientIndex) with
        | none => s.caught
        | some s => (s.delete browserIndex clientIndex).goOn (.releasing gamepads entries)

/-- The client index of a gamepad, a new one where it has none. -/
def track (s : State) (browserIndex : Nat) : Nat × State :=
  match s.trackedGamepads.get browserIndex with
  | some clientIndex => (clientIndex, s)
  | none =>
      let (clientIndex, s) := s.getNextClientGamepadIndex
      (clientIndex, { s with trackedGamepads := s.trackedGamepads.set browserIndex clientIndex })

def sendOr (s : State) (state : GamepadState) (phase : Phase) : State :=
  match s.send state with
  | none => s.caught
  | some s => s.goOn phase

def assign (s : State) (gamepads : List Gamepad) (gamepad : Gamepad) (rest : List Gamepad)
    (manualButtonIndices : List Nat) : State :=
  let (clientIndex, s) := s.track gamepad.index
  s.sendOr (createGamepadState gamepad clientIndex manualButtonIndices) (.assigning gamepads rest)

/-- What is sent while there is no gamepad. -/
def assigned (s : State) (gamepads : List Gamepad) (manualButtonIndices : List Nat) : State :=
  if gamepads = [] then
    s.sendOr ((createVirtualManualGamepadState manualButtonIndices).getD (createNeutralGamepadState 0)) .idle
  else s.goOn .idle

end State

/-- What happens next: the loop is called, or goes on after a wait while some manual buttons are
pressed, or the hook is disposed of. -/
inductive Step where
  | poll (gamepads : List (Option Gamepad))
  | work (manualButtonIndices : List Nat)
  | dispose

namespace State

/-- `none` where the step cannot be taken. -/
def move (s : State) : Step → Option State
  | .poll gamepads =>
      match s.phase, s.disposed with
      | .idle, false =>
          some (s.goOn (.releasing (getConnectedGamepads gamepads) s.trackedGamepads.keys))
      | _, _ => none
  | .work manualButtonIndices =>
      match s.phase with
      | .idle => none
      | .releasing gamepads (browserIndex :: entries) => some (s.release gamepads browserIndex entries)
      | .releasing gamepads [] => some (s.goOn (.assigning gamepads gamepads))
      | .assigning gamepads (gamepad :: rest) =>
          some (s.assign gamepads gamepad rest manualButtonIndices)
      | .assigning gamepads [] => some (s.assigned gamepads manualButtonIndices)
  | .dispose => some { s with disposed := true }

def observe (s : State) : State := { s with peak := max s.peak s.trackedGamepads.keys.length }

def next (s : State) (step : Step) : Option State := (s.move step).map observe

end State

def inputStream : Labelled State Step where
  init s := s = .start
  step s step t := s.next step = some t

namespace State

/-- The two variables that client indexes come from. -/
def pool (s : State) : IndexPool := ⟨s.nextClientGamepadIndex, s.availableClientGamepadIndexes⟩

/-- The client indexes of the gamepads that are tracked. -/
def used (s : State) : Set Nat := {i | ∃ browserIndex, s.trackedGamepads.get browserIndex = some i}

/-- `lastSentPackets` is what its name says. -/
def Sent (s : State) : Prop := ∀ i, s.lastSentPackets i = Input.lastFor i s.packets

end State

variable {s t : State}

/-! ### What one step does -/

/-- A packet that was not sent again was the last one. -/
theorem send_spec {state : GamepadState} (h : s.send state = some t) :
    (∃ payload, encodeGamepadState state = some payload ∧
      t.lastSentPackets state.clientIndex = some payload) ∧ (s.Sent → t.Sent) ∧
      t.trackedGamepads = s.trackedGamepads ∧ t.pool = s.pool ∧ t.peak = s.peak := by
  obtain ⟨⟨written, lastSent⟩, hsent, rfl⟩ := Option.map_eq_some_iff.mp h
  obtain ⟨payload, hencode, hpacket⟩ := Option.map_eq_some_iff.mp hsent
  have hdevice := Input.deviceOf_encode hencode
  split at hpacket
  · next hequal =>
    cases hpacket
    refine ⟨⟨payload, hencode, hequal⟩, fun hs i => ?_, rfl, rfl, rfl⟩
    change s.lastSentPackets i = Input.lastFor i (s.packets ++ [])
    rw [List.append_nil]
    exact hs i
  · cases hpacket
    refine ⟨⟨payload, hencode, Function.update_self ..⟩, fun hs i => ?_, rfl, rfl, rfl⟩
    change Function.update s.lastSentPackets state.clientIndex (some payload) i = _
    by_cases hi : i = state.clientIndex
    · subst hi
      rw [Function.update_self, ← hdevice, Input.lastFor_snoc]
    · rw [Function.update_of_ne hi, Input.lastFor_snoc_ne _ fun heq => hi (heq.symm.trans hdevice), hs i]

/-- What a step does to the indexes. -/
inductive Change (s t : State) : Prop where
  | same : t.trackedGamepads = s.trackedGamepads → t.pool = s.pool → Change s t
  | released (browserIndex clientIndex : Nat) (payload : List UInt8) :
      s.trackedGamepads.get browserIndex = some clientIndex →
      encodeGamepadState (createNeutralGamepadState clientIndex) = some payload →
      t.lastSentPackets clientIndex = some payload →
      t.trackedGamepads = s.trackedGamepads.delete browserIndex →
      t.pool = (s.delete browserIndex clientIndex).pool → Change s t
  | tracked (browserIndex : Nat) : s.trackedGamepads.get browserIndex = none →
      t.trackedGamepads = s.trackedGamepads.set browserIndex s.pool.take.1 →
      t.pool = s.pool.take.2 → Change s t

/-- A step that does such a thing, and keeps what was sent. -/
structure Keeps (s t : State) : Prop where
  change : Change s t
  sent : s.Sent → t.Sent
  peak : t.peak = s.peak

theorem sendOr_spec (s : State) (state : GamepadState) (phase : Phase) :
    (s.sendOr state phase).trackedGamepads = s.trackedGamepads ∧
      (s.sendOr state phase).pool = s.pool ∧ (s.Sent → (s.sendOr state phase).Sent) ∧
      (s.sendOr state phase).peak = s.peak := by
  unfold State.sendOr
  split
  · exact ⟨rfl, rfl, id, rfl⟩
  · next u hsend =>
    obtain ⟨-, hsent, htracked, hpool, hpeak⟩ := send_spec hsend
    exact ⟨htracked, hpool, hsent, hpeak⟩

theorem keeps_release (gamepads : List Gamepad) (browserIndex : Nat) (entries : List Nat) :
    Keeps s (s.release gamepads browserIndex entries) := by
  unfold State.release
  split
  · exact ⟨.same rfl rfl, id, rfl⟩
  · split
    · exact ⟨.same rfl rfl, id, rfl⟩
    · next clientIndex hget =>
      split
      · exact ⟨.same rfl rfl, id, rfl⟩
      · next u hsend =>
        obtain ⟨⟨payload, hencode, hlast⟩, hsent, htracked, hpool, hpeak⟩ := send_spec hsend
        refine ⟨.released browserIndex clientIndex payload hget hencode hlast ?_ ?_, hsent, hpeak⟩
        · exact congrArg (OrderedMap.delete · browserIndex) htracked
        · obtain ⟨hnext, havailable⟩ := IndexPool.mk.inj hpool
          rw [State.pool, State.pool]
          simp only [State.goOn, State.delete, hnext, havailable]

theorem getNextClientGamepadIndex_eq (s : State) : s.getNextClientGamepadIndex = (s.pool.take.1,
    { s with
      nextClientGamepadIndex := s.pool.take.2.next
      availableClientGamepadIndexes := s.pool.take.2.available }) := by
  obtain ⟨_, available, _, _, _, _, _, _⟩ := s
  cases available with
  | nil => rfl
  | cons i available => rfl

theorem track_of_some {browserIndex clientIndex : Nat}
    (h : s.trackedGamepads.get browserIndex = some clientIndex) :
    s.track browserIndex = (clientIndex, s) := by
  rw [State.track, h]

theorem track_of_none {browserIndex : Nat} (h : s.trackedGamepads.get browserIndex = none) :
    s.track browserIndex = (s.pool.take.1,
      { s with
        nextClientGamepadIndex := s.pool.take.2.next
        availableClientGamepadIndexes := s.pool.take.2.available
        trackedGamepads := s.trackedGamepads.set browserIndex s.pool.take.1 }) := by
  rw [State.track, h]
  dsimp only
  rw [getNextClientGamepadIndex_eq]

theorem keeps_assign (gamepads : List Gamepad) (gamepad : Gamepad) (rest : List Gamepad)
    (manualButtonIndices : List Nat) : Keeps s (s.assign gamepads gamepad rest manualButtonIndices) := by
  unfold State.assign
  cases hget : s.trackedGamepads.get gamepad.index with
  | some clientIndex =>
      rw [track_of_some hget]
      obtain ⟨htracked, hpool, hsent, hpeak⟩ := sendOr_spec s
        (createGamepadState gamepad clientIndex manualButtonIndices) (.assigning gamepads rest)
      exact ⟨.same htracked hpool, hsent, hpeak⟩
  | none =>
      rw [track_of_none hget]
      dsimp only
      obtain ⟨htracked, hpool, hsent, hpeak⟩ := sendOr_spec _
        (createGamepadState gamepad s.pool.take.1 manualButtonIndices) (.assigning gamepads rest)
      exact ⟨.tracked gamepad.index hget htracked hpool, hsent, hpeak⟩

theorem keeps_move {step : Step} (h : s.move step = some t) : Keeps s t := by
  cases step with
  | poll gamepads =>
      rw [State.move] at h
      split at h
      · cases h
        exact ⟨.same rfl rfl, id, rfl⟩
      · cases h
  | work manualButtonIndices =>
      rw [State.move] at h
      split at h
      · cases h
      · cases h
        exact keeps_release ..
      · cases h
        exact ⟨.same rfl rfl, id, rfl⟩
      · cases h
        exact keeps_assign ..
      · next gamepads _ =>
        cases h
        unfold State.assigned
        split
        · obtain ⟨htracked, hpool, hsent, hpeak⟩ := sendOr_spec s
            ((createVirtualManualGamepadState manualButtonIndices).getD (createNeutralGamepadState 0)) .idle
          exact ⟨.same htracked hpool, hsent, hpeak⟩
        · exact ⟨.same rfl rfl, id, rfl⟩
  | dispose =>
      cases h
      exact ⟨.same rfl rfl, id, rfl⟩

/-! ### All runs -/

/-- Gamepads have indexes of their own, the others that were given out are available, and there are
no more of them than there were gamepads at one time. -/
structure State.Inv (s : State) : Prop where
  inj (b b' i : Nat) : s.trackedGamepads.get b = some i → s.trackedGamepads.get b' = some i → b = b'
  serves : s.pool.Serves s.used
  peak : s.nextClientGamepadIndex ≤ s.peak
  sent : s.Sent

theorem inv_start : State.start.Inv where
  inj _ _ _ h := by cases h
  serves := by
    refine ⟨List.Pairwise.nil, fun i => ?_, fun i _ => List.not_mem_nil⟩
    constructor
    · intro hlt
      exact absurd hlt (Nat.not_lt_zero i)
    · rintro (⟨b, hb⟩ | hmem)
      · cases hb
      · cases hmem
  peak := Nat.le_refl 0
  sent _ := rfl

theorem used_delete (h : s.Inv) {b i : Nat} (hget : s.trackedGamepads.get b = some i)
    (htracked : t.trackedGamepads = s.trackedGamepads.delete b) : t.used = s.used \ {i} := by
  ext j
  simp only [State.used, htracked, OrderedMap.get_delete_eq_some, Set.mem_ofPred_eq, Set.mem_sdiff,
    Set.mem_singleton_iff]
  constructor
  · rintro ⟨b', hne, hb'⟩
    refine ⟨⟨b', hb'⟩, ?_⟩
    rintro rfl
    exact hne (h.inj _ _ _ hb' hget)
  · rintro ⟨⟨b', hb'⟩, hne⟩
    refine ⟨b', ?_, hb'⟩
    rintro rfl
    rw [hget] at hb'
    exact hne (Option.some.inj hb').symm

theorem used_set {b i : Nat} (hget : s.trackedGamepads.get b = none)
    (htracked : t.trackedGamepads = s.trackedGamepads.set b i) : t.used = insert i s.used := by
  ext j
  simp only [State.used, htracked, Set.mem_ofPred_eq, Set.mem_insert_iff]
  constructor
  · rintro ⟨b', hb'⟩
    by_cases hb : b' = b
    · subst hb
      rw [OrderedMap.get_set_self] at hb'
      exact .inl (Option.some.inj hb').symm
    · rw [OrderedMap.get_set_ne _ _ hb] at hb'
      exact .inr ⟨b', hb'⟩
  · rintro (rfl | ⟨b', hb'⟩)
    · exact ⟨b, OrderedMap.get_set_self ..⟩
    · refine ⟨b', ?_⟩
      have hb : b' ≠ b := by
        rintro rfl
        rw [hget] at hb'
        cases hb'
      rw [OrderedMap.get_set_ne _ _ hb]
      exact hb'

/-- There are as many indexes in use as gamepads are tracked. -/
theorem used_eq (s : State) :
    s.used = {i | i ∈ s.trackedGamepads.keys.filterMap s.trackedGamepads.get} := by
  ext i
  simp only [State.used, Set.mem_ofPred_eq, List.mem_filterMap]
  constructor
  · rintro ⟨b, hb⟩
    exact ⟨b, OrderedMap.mem_keys_of_get hb, hb⟩
  · rintro ⟨b, -, hb⟩
    exact ⟨b, hb⟩

theorem pool_delete {b i : Nat} (h : i ∉ s.availableClientGamepadIndexes) :
    (s.delete b i).pool = s.pool.release i := by
  simp only [State.pool, State.delete, releaseClientGamepadIndex, if_neg h, IndexPool.release]

theorem State.Inv.change (h : s.Inv) (hchange : Change s t) :
    (∀ b b' i, t.trackedGamepads.get b = some i → t.trackedGamepads.get b' = some i → b = b') ∧
      t.pool.Serves t.used ∧
      (t.nextClientGamepadIndex ≤ s.peak ∨
        t.nextClientGamepadIndex ≤ t.trackedGamepads.keys.length) := by
  cases hchange with
  | same htracked hpool =>
      have hused : t.used = s.used := by rw [State.used, State.used, htracked]
      refine ⟨?_, ?_, .inl ?_⟩
      · rw [htracked]
        exact h.inj
      · rw [hpool, hused]
        exact h.serves
      · exact (congrArg IndexPool.next hpool).trans_le h.peak
  | released b i payload hget hencode hlast htracked hpool =>
      rw [pool_delete (h.serves.disjoint i ⟨b, hget⟩)] at hpool
      refine ⟨fun b₁ b₂ j h₁ h₂ => ?_, ?_, .inl ?_⟩
      · rw [htracked, OrderedMap.get_delete_eq_some] at h₁ h₂
        exact h.inj b₁ b₂ j h₁.2 h₂.2
      · rw [hpool, used_delete h hget htracked]
        exact h.serves.release ⟨b, hget⟩
      · exact (congrArg IndexPool.next hpool).trans_le h.peak
  | tracked b hget htracked hpool =>
      have hserves : t.pool.Serves t.used := by
        rw [hpool, used_set hget htracked]
        exact h.serves.take
      refine ⟨fun b₁ b₂ j h₁ h₂ => ?_, hserves, ?_⟩
      · -- the new index is in use for no other gamepad
        have hnew := h.serves.take_isLeast.1
        have hcases (b' : Nat) (hb' : t.trackedGamepads.get b' = some j) :
            b' = b ∧ j = s.pool.take.1 ∨ s.trackedGamepads.get b' = some j := by
          rw [htracked] at hb'
          by_cases hb : b' = b
          · subst hb
            rw [OrderedMap.get_set_self] at hb'
            exact .inl ⟨rfl, (Option.some.inj hb').symm⟩
          · rw [OrderedMap.get_set_ne _ _ hb] at hb'
            exact .inr hb'
        rcases hcases b₁ h₁ with ⟨rfl, rfl⟩ | hold₁
        · rcases hcases b₂ h₂ with ⟨rfl, -⟩ | hold₂
          · rfl
          · exact absurd ⟨b₂, hold₂⟩ hnew
        · rcases hcases b₂ h₂ with ⟨rfl, rfl⟩ | hold₂
          · exact absurd ⟨b₁, hold₁⟩ hnew
          · exact h.inj b₁ b₂ j hold₁ hold₂
      · rcases s.pool.next_take with hsame | hempty
        · refine .inl ?_
          rw [← hpool] at hsame
          exact hsame.trans_le h.peak
        · refine .inr ?_
          rw [← hpool] at hempty
          rw [used_eq] at hserves
          have hle := hserves.next_le
          rw [hempty] at hle
          exact hle.trans (List.length_filterMap_le ..)

theorem State.Inv.next (h : s.Inv) {step : Step} (hstep : s.next step = some t) : t.Inv := by
  obtain ⟨u, hmove, rfl⟩ := Option.map_eq_some_iff.mp hstep
  have hkeeps := keeps_move hmove
  obtain ⟨hinj, hserves, hnext⟩ := h.change hkeeps.change
  refine ⟨hinj, hserves, ?_, hkeeps.sent h.sent⟩
  change u.nextClientGamepadIndex ≤ max u.peak u.trackedGamepads.keys.length
  rw [hkeeps.peak]
  exact le_max_iff.mpr hnext

/-- A gamepad that was not tracked gets the smallest index not in use. -/
theorem State.Inv.assigned (h : s.Inv) {step : Step} (hstep : s.next step = some t) {b i : Nat}
    (hnone : s.trackedGamepads.get b = none) (hsome : t.trackedGamepads.get b = some i) :
    IsLeast s.usedᶜ i := by
  obtain ⟨u, hmove, rfl⟩ := Option.map_eq_some_iff.mp hstep
  replace hsome : u.trackedGamepads.get b = some i := hsome
  cases (keeps_move hmove).change with
  | same htracked hpool =>
      rw [htracked, hnone] at hsome
      cases hsome
  | released b' i' payload hget hencode hlast htracked hpool =>
      rw [htracked, OrderedMap.get_delete_eq_some, hnone] at hsome
      cases hsome.2
  | tracked b' hget htracked hpool =>
      rw [htracked] at hsome
      by_cases hb : b = b'
      · subst hb
        rw [OrderedMap.get_set_self] at hsome
        cases hsome
        exact h.serves.take_isLeast
      · rw [OrderedMap.get_set_ne _ _ hb, hnone] at hsome
        cases hsome

/-- A gamepad keeps its index until the neutral packet is the last one for it. -/
theorem State.Inv.released (h : s.Inv) {step : Step} (hstep : s.next step = some t) {b i : Nat}
    (hsome : s.trackedGamepads.get b = some i) (hgone : t.trackedGamepads.get b ≠ some i) :
    t.trackedGamepads.get b = none ∧ ∃ payload,
      encodeGamepadState (createNeutralGamepadState i) = some payload ∧
        Input.lastFor i t.packets = some payload := by
  have hsent := (h.next hstep).sent
  obtain ⟨u, hmove, rfl⟩ := Option.map_eq_some_iff.mp hstep
  replace hgone : u.trackedGamepads.get b ≠ some i := hgone
  change u.trackedGamepads.get b = none ∧ _
  cases (keeps_move hmove).change with
  | same htracked hpool =>
      rw [htracked] at hgone
      exact absurd hsome hgone
  | released b' i' payload hget hencode hlast htracked hpool =>
      rw [htracked] at hgone ⊢
      by_cases hb : b = b'
      · subst hb
        rw [hget] at hsome
        cases hsome
        refine ⟨?_, payload, hencode, (hsent i).symm.trans hlast⟩
        refine Option.eq_none_iff_forall_ne_some.mpr fun j hj => ?_
        exact (OrderedMap.get_delete_eq_some.mp hj).1 rfl
      · rw [OrderedMap.get_delete_ne _ hb] at hgone
        exact absurd hsome hgone
  | tracked b' hget htracked hpool =>
      rw [htracked] at hgone
      have hb : b ≠ b' := by
        rintro rfl
        rw [hget] at hsome
        cases hsome
      rw [OrderedMap.get_set_ne _ _ hb] at hgone
      exact absurd hsome hgone

/-- Client indexes are given out and taken back one by one, the smallest first, and none is taken back
before its gamepad is neutral. -/
theorem indexes_allocated {trace : List Step} (hs : inputStream.Run trace s) :
    (∀ b b' i, s.trackedGamepads.get b = some i → s.trackedGamepads.get b' = some i → b = b') ∧
    (∀ i, i < s.nextClientGamepadIndex ↔ i ∈ s.used ∨ i ∈ s.availableClientGamepadIndexes) ∧
    (∀ i ∈ s.used, i ∉ s.availableClientGamepadIndexes) ∧
    s.availableClientGamepadIndexes.Pairwise (· < ·) ∧
    (∀ i ∈ s.used, i < s.peak) ∧
    ∀ step t, s.next step = some t →
      (∀ b i, s.trackedGamepads.get b = none → t.trackedGamepads.get b = some i → IsLeast s.usedᶜ i) ∧
      ∀ b i, s.trackedGamepads.get b = some i → t.trackedGamepads.get b ≠ some i →
        t.trackedGamepads.get b = none ∧ ∃ payload,
          encodeGamepadState (createNeutralGamepadState i) = some payload ∧
            Input.lastFor i t.packets = some payload := by
  have h : s.Inv := by
    refine hs.always State.Inv ?_ ?_
    · rintro _ rfl
      exact inv_start
    · exact fun _ _ _ hinv hstep => hinv.next hstep
  refine ⟨h.inj, h.serves.lt_next_iff, h.serves.disjoint, h.serves.sorted, fun i hi => ?_,
    fun step t hstep => ⟨fun b i => h.assigned hstep, fun b i => h.released hstep⟩⟩
  exact ((h.serves.lt_next_iff i).mpr (.inl hi)).trans_le h.peak

/-- A gamepad comes, and another is there in its place at the next call of the loop. -/
def replacing : List Step :=
  [.poll [none, some ⟨4, "pad", true, [true], []⟩], .work [], .work [], .work [],
    .poll [some ⟨7, "pad", true, [], []⟩], .work [], .work [], .work []]

theorem replacing_allocated : ∃ s : State, inputStream.Run replacing s ∧
    s.trackedGamepads.get 7 = some 0 ∧ 0 < s.peak := by
  obtain ⟨s, hrun, hseven⟩ : ∃ s : State, inputStream.Run replacing s ∧
      s.trackedGamepads.get 7 = some 0 := Labelled.exists_run_next (by decide)
  obtain ⟨-, -, -, -, hlt, -⟩ := indexes_allocated hrun
  exact ⟨s, hrun, hseven, hlt 0 ⟨7, hseven⟩⟩

end GamepadIndexes

end Stratus.Frontend
