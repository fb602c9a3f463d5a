import Mathlib.Data.List.Perm.Basic
import Mathlib.Data.List.FinRange
import Mathlib.Logic.Function.Basic
import Stratus.Lib.Transition
import Stratus.Input.Session

/-! The gamepads of `input_main`: the first is made at the start, the others when an event for them
comes, and `input_destroy` runs as a cleanup handler. -/
namespace Stratus.Input

open Stratus.Lib

namespace Slots

/-- An element of `gamepads[]`; `made n` is what `gamepad_init` has returned for the `n`-th device. -/
inductive Pointer where
  | null
  | made (n : Nat)
  | garbage
deriving DecidableEq

/-- A call of `gamepad_init` or of `gamepad_update` for a slot. -/
inductive Op where
  | init (i : Fin 8)
  | update (i : Fin 8)
deriving DecidableEq

inductive Phase where
  | starting
  | running
  | ended
deriving DecidableEq

/-- `destroyed` are the gamepads that `gamepad_destroy` was called with, or `none` where memory was
used that is not to be. -/
structure State where
  gamepads : Fin 8 → Pointer
  log : List Op
  created : Nat
  destroyed : Option (List Pointer)
  phase : Phase

/-- What `malloc` returns: a word of it is zero or anything else. -/
def State.start (zeroed : Fin 8 → Bool) : State where
  gamepads i := if zeroed i then .null else .garbage
  log := []
  created := 0
  destroyed := some []
  phase := .starting

/-- What happens to the thread: the first gamepad is made or not, an event is received, or it is
cancelled, between two calls or in `gamepad_init`, before or after the device is there. -/
inductive Step where
  | start (created : Bool)
  | event (device : Nat) (create write : Bool)
  | cancel
  | cancelInit (i : Fin 8) (created : Bool)

/-- `input_destroy`. -/
def State.cleanup (s : State) : State :=
  { s with
    destroyed := some (((List.finRange 8).filter fun i => s.gamepads i ≠ .null).map s.gamepads)
    phase := .ended }

/-- `gamepad_init` for a slot. -/
def State.create (s : State) (i : Fin 8) : State :=
  { s with
    gamepads := Function.update s.gamepads i (.made s.created)
    log := s.log ++ [.init i]
    created := s.created + 1 }

def State.record (s : State) (op : Op) : State := { s with log := s.log ++ [op] }

/-- `gamepad_update` for a slot; an error ends the loop. -/
def State.update (s : State) (i : Fin 8) (write : Bool) : State :=
  if write then s.record (.update i) else (s.record (.update i)).cleanup

def inputRecvEvent (s : State) (device : Nat) (create write : Bool) : State :=
  if h : device < 8 then
    match s.gamepads ⟨device, h⟩ with
    | .null =>
        if create then (s.create ⟨device, h⟩).update ⟨device, h⟩ write
        else (s.record (.init ⟨device, h⟩)).cleanup
    | .made _ => s.update ⟨device, h⟩ write
    | .garbage => { s.record (.update ⟨device, h⟩) with destroyed := none, phase := .ended }
  else s

/-- `none` where the step cannot be taken. -/
def State.next (s : State) : Step → Option State
  | .start created =>
      if s.phase = .starting then
        if created then some { s.create 0 with phase := .running }
        -- the handler is called for memory that has been freed
        else some { s.record (.init 0) with
          gamepads := Function.update s.gamepads 0 .null, destroyed := none, phase := .ended }
      else none
  | .event device create write =>
      if s.phase = .running then some (inputRecvEvent s device create write) else none
  | .cancel => if s.phase = .running then some s.cleanup else none
  | .cancelInit i created =>
      if s.phase = .starting ∧ i = 0 ∨ s.phase = .running ∧ s.gamepads i = .null then
        some { (s.record (.init i)).cleanup with created := s.created + created.toNat }
      else none

/-- Before each update of a gamepad it has been made once. -/
def Initialised (log : List Op) : Prop :=
  ∀ k i, log[k]? = some (.update i) → (log.take k).count (.init i) = 1

/-- What is promised of a state: once the first gamepad is made every slot is empty or has a gamepad,
and in the end exactly those that were made are destroyed. -/
structure State.Sound (s : State) : Prop where
  slots : s.phase ≠ .starting → ∀ i, s.gamepads i = .null ∨ ∃ n < s.created, s.gamepads i = .made n
  inits : Initialised s.log
  destroys : s.phase = .ended →
    ∃ destroyed, s.destroyed = some destroyed ∧ destroyed.Perm ((List.range s.created).map .made)

/-- The first gamepad is made, and the thread is not cancelled in `gamepad_init` once there is a
device. -/
def Step.Clean : Step → Prop
  | .start created => created = true
  | .event .. | .cancel => True
  | .cancelInit _ created => created = false

/-- Such steps, from memory in which the slots happen to be empty that nothing is written to at the
start. -/
structure Clean (zeroed : Fin 8 → Bool) (trace : List Step) : Prop where
  others : trace ≠ [] → ∀ i ≠ 0, zeroed i = true
  first : trace.head? = some (.cancelInit 0 false) → zeroed 0 = true
  steps : ∀ step ∈ trace, step.Clean

/-! ### The slots of a session -/

inductive Pointer.Is : Pointer → Slot → Prop where
  | null : Is .null .null
  | made (n : Nat) (gamepad : Gamepad) : Is (.made n) (.pad gamepad)
  | garbage : Is .garbage .garbage

/-- What the state is after an event with this outcome. -/
def State.After (s : State) : Outcome → Prop
  | .ok => s.phase = .running
  | .failed => s = s.cleanup
  | .undefined => s.phase = .ended ∧ s.destroyed = none

theorem Pointer.is_update {pointers : Fin 8 → Pointer} {slots : Fin 8 → Slot}
    (h : ∀ i, (pointers i).Is (slots i)) {pointer : Pointer} {slot : Slot} (hnew : pointer.Is slot)
    (i j : Fin 8) : (Function.update pointers i pointer j).Is (Function.update slots i slot j) := by
  by_cases hj : j = i
  · subst hj
    rw [Function.update_self, Function.update_self]
    exact hnew
  · rw [Function.update_of_ne hj, Function.update_of_ne hj]
    exact h j

theorem State.gamepads_update (s : State) (i : Fin 8) (write : Bool) :
    (s.update i write).gamepads = s.gamepads := by
  rw [State.update]
  split <;> rfl

theorem State.After.update {s : State} (hphase : s.phase = .running) (i : Fin 8) (write : Bool) :
    (s.update i write).After (if write then .ok else .failed) := by
  cases write with
  | true => exact hphase
  | false => rfl

/-- An event does to the slots what `Input.inputRecvEvent` does to the session's. -/
theorem inputRecvEvent_refines (platform : Platform) (session : InputSession)
    (event : List StreamByte) {s : State} (hphase : s.phase = .running)
    (h : ∀ i, (s.gamepads i).Is (session.gamepads i)) :
    let result := Input.inputRecvEvent platform session event
    let t := inputRecvEvent s (deviceOf (event.map StreamByte.value))
      (platform.create session.events.length) (platform.write session.events.length)
    (∀ i, (t.gamepads i).Is (result.1.gamepads i)) ∧ t.After result.2 := by
  unfold Input.inputRecvEvent inputRecvEvent
  dsimp only
  split
  · next hdevice =>
    have hslot := h ⟨_, hdevice⟩
    generalize hpointer : s.gamepads ⟨_, hdevice⟩ = pointer at hslot
    generalize session.gamepads ⟨_, hdevice⟩ = slot at hslot
    cases hslot with
    | null =>
        cases platform.create session.events.length with
        | true =>
            refine ⟨fun i => ?_, State.After.update (s := s.create _) hphase _ _⟩
            change ((State.update (s.create _) _ _).gamepads i).Is _
            rw [State.gamepads_update]
            exact Pointer.is_update h (.made _ _) _ i
        | false => exact ⟨h, rfl⟩
    | made n gamepad =>
        refine ⟨fun i => ?_, .update hphase _ _⟩
        change ((s.update _ _).gamepads i).Is _
        rw [State.gamepads_update, ← Function.update_eq_self ⟨_, hdevice⟩ s.gamepads, hpointer]
        exact Pointer.is_update h (.made _ _) _ i
    | garbage => exact ⟨h, rfl, rfl⟩
  · exact ⟨h, hphase⟩

/-! ### The log -/

theorem initialised_nil : Initialised [] := by
  intro k i hk
  rw [List.getElem?_nil] at hk
  cases hk

theorem Initialised.concat {log : List Op} (h : Initialised log) {op : Op}
    (hop : ∀ i, op = .update i → log.count (.init i) = 1) : Initialised (log ++ [op]) := by
  intro k i hk
  rcases getElem?_snoc_cases hk with hold | ⟨rfl, heq⟩
  · have hlt := (List.getElem?_eq_some_iff.mp hold).1
    rw [List.take_append_of_le_length hlt.le]
    exact h k i hold
  · rw [List.take_left]
    exact hop i heq.symm

/-! ### What the slots hold -/

/-- Every slot is empty or has a gamepad, and every gamepad has one slot. -/
structure State.Held (s : State) : Prop where
  slots (i : Fin 8) : s.gamepads i = .null ∨ ∃ n < s.created, s.gamepads i = .made n
  onto : ∀ n < s.created, ∃ i, s.gamepads i = .made n
  inj (i j : Fin 8) (n : Nat) : s.gamepads i = .made n → s.gamepads j = .made n → i = j

variable {s t : State}

theorem State.Held.record (h : s.Held) (op : Op) : (s.record op).Held := ⟨h.slots, h.onto, h.inj⟩

theorem State.gamepads_create_self (s : State) (i : Fin 8) :
    (s.create i).gamepads i = .made s.created := Function.update_self ..

theorem State.gamepads_create_of_ne (s : State) {i j : Fin 8} (h : j ≠ i) :
    (s.create i).gamepads j = s.gamepads j := Function.update_of_ne h ..

theorem State.Held.create (h : s.Held) {i : Fin 8} (hnull : s.gamepads i = .null) :
    (s.create i).Held where
  slots j := by
    by_cases hj : j = i
    · subst hj
      exact .inr ⟨s.created, Nat.lt_succ_self _, s.gamepads_create_self _⟩
    · rw [s.gamepads_create_of_ne hj]
      refine (h.slots j).imp_right ?_
      rintro ⟨n, hn, hmade⟩
      exact ⟨n, Nat.lt_succ_of_lt hn, hmade⟩
  onto n hn := by
    rcases Nat.lt_succ_iff_lt_or_eq.mp hn with hlt | rfl
    · obtain ⟨j, hj⟩ := h.onto n hlt
      have hne : j ≠ i := by
        rintro rfl
        rw [hnull] at hj
        cases hj
      exact ⟨j, (s.gamepads_create_of_ne hne).trans hj⟩
    · exact ⟨i, s.gamepads_create_self i⟩
  inj j k n hj hk := by
    have hold (m : Fin 8) (hm : m ≠ i) (hmade : (s.create i).gamepads m = .made n) :
        s.gamepads m = .made n ∧ n < s.created := by
      rw [s.gamepads_create_of_ne hm] at hmade
      rcases h.slots m with hnone | ⟨n', hn', hsame⟩
      · rw [hnone] at hmade
        cases hmade
      · rw [hsame] at hmade
        cases hmade
        exact ⟨hsame, hn'⟩
    have hnew := s.gamepads_create_self i
    by_cases hji : j = i <;> by_cases hki : k = i
    · exact hji.trans hki.symm
    · obtain ⟨-, hlt⟩ := hold k hki hk
      rw [hji, hnew] at hj
      cases hj
      exact absurd hlt (Nat.lt_irrefl _)
    · obtain ⟨-, hlt⟩ := hold j hji hj
      rw [hki, hnew] at hk
      cases hk
      exact absurd hlt (Nat.lt_irrefl _)
    · exact h.inj j k n (hold j hji hj).1 (hold k hki hk).1

/-- The handler destroys each gamepad once. -/
theorem State.Held.destroys (h : s.Held) :
    (((List.finRange 8).filter fun i => s.gamepads i ≠ .null).map s.gamepads).Perm
      ((List.range s.created).map .made) := by
  have hmade (i : Fin 8) (hi : i ∈ (List.finRange 8).filter fun i => s.gamepads i ≠ .null) :
      ∃ n < s.created, s.gamepads i = .made n := by
    have hsome : s.gamepads i ≠ .null := by simpa using (List.mem_filter.mp hi).2
    exact (h.slots i).resolve_left hsome
  refine (List.perm_ext_iff_of_nodup ?_ ?_).mpr fun pointer => ?_
  · refine List.Nodup.map_on (fun i hi j hj heq => ?_) ((List.nodup_finRange 8).filter _)
    obtain ⟨n, -, hn⟩ := hmade i hi
    exact h.inj i j n hn (heq ▸ hn)
  · exact (List.nodup_range).map fun n m heq => by cases heq; rfl
  · simp only [List.mem_map, List.mem_range]
    constructor
    · rintro ⟨i, hi, rfl⟩
      obtain ⟨n, hlt, hn⟩ := hmade i hi
      exact ⟨n, hlt, hn.symm⟩
    · rintro ⟨n, hlt, rfl⟩
      obtain ⟨i, hi⟩ := h.onto n hlt
      exact ⟨i, List.mem_filter.mpr ⟨List.mem_finRange i, by simp [hi]⟩, hi⟩

theorem State.Held.cleanup_sound (h : s.Held) (hinits : Initialised s.log) : s.cleanup.Sound where
  slots _ := h.slots
  inits := hinits
  destroys _ := ⟨_, rfl, h.destroys⟩

/-! ### Clean runs -/

/-- The invariant of the loop: a slot has a gamepad exactly if one was made for it, and once. -/
structure State.Running (s : State) : Prop where
  held : s.Held
  empty (i : Fin 8) : s.gamepads i = .null → s.log.count (.init i) = 0
  once (i : Fin 8) (n : Nat) : s.gamepads i = .made n → s.log.count (.init i) = 1
  inits : Initialised s.log

theorem State.Running.sound (h : s.Running) (hphase : s.phase = .running) : s.Sound where
  slots _ := h.held.slots
  inits := h.inits
  destroys hended := by rw [hphase] at hended; cases hended

theorem State.Running.create (h : s.Running) {i : Fin 8} (hnull : s.gamepads i = .null) :
    (s.create i).Running where
  held := h.held.create hnull
  empty j hj := by
    have hne : j ≠ i := by
      rintro rfl
      rw [s.gamepads_create_self] at hj
      cases hj
    rw [s.gamepads_create_of_ne hne] at hj
    simp [State.create, List.count_append, h.empty j hj, hne.symm]
  once j n hj := by
    by_cases hne : j = i
    · subst hne
      simp [State.create, List.count_append, h.empty j hnull]
    · rw [s.gamepads_create_of_ne hne] at hj
      simp [State.create, List.count_append, h.once j n hj, Ne.symm hne]
  inits := h.inits.concat nofun

theorem State.Running.record_update (h : s.Running) {i : Fin 8} {n : Nat}
    (hmade : s.gamepads i = .made n) : (s.record (.update i)).Running where
  held := h.held.record _
  empty j hj := by simpa [State.record, List.count_append] using h.empty j hj
  once j n hj := by simpa [State.record, List.count_append] using h.once j n hj
  inits := h.inits.concat fun j hj => by cases hj; exact h.once i n hmade

/-- After a step the loop goes on, or the handler has run. -/
def State.Kept (s : State) : Prop :=
  s.phase = .running ∧ s.Running ∨ s.phase = .ended ∧ s.Sound

theorem State.Kept.sound (h : s.Kept) : s.Sound := by
  rcases h with ⟨hphase, h⟩ | ⟨-, h⟩
  · exact h.sound hphase
  · exact h

theorem State.Running.update (h : s.Running) (hphase : s.phase = .running) {i : Fin 8} {n : Nat}
    (hmade : s.gamepads i = .made n) (write : Bool) : (s.update i write).Kept := by
  have hrecord := h.record_update hmade
  rw [State.update]
  split
  · exact .inl ⟨hphase, hrecord⟩
  · exact .inr ⟨rfl, hrecord.held.cleanup_sound hrecord.inits⟩

theorem State.Running.inputRecvEvent (h : s.Running) (hphase : s.phase = .running) (device : Nat)
    (create write : Bool) : (inputRecvEvent s device create write).Kept := by
  rw [Slots.inputRecvEvent]
  split
  · next hdevice =>
    split
    · next hnull =>
      split
      · exact (h.create hnull).update hphase (s.gamepads_create_self _) write
      · exact .inr ⟨rfl, (h.held.record _).cleanup_sound (h.inits.concat nofun)⟩
    · next n hmade => exact h.update hphase hmade write
    · next hgarbage =>
      rcases h.held.slots ⟨device, hdevice⟩ with hnull | ⟨n, -, hmade⟩
      · rw [hnull] at hgarbage
        cases hgarbage
      · rw [hmade] at hgarbage
        cases hgarbage
  · exact .inl ⟨hphase, h⟩

theorem held_start {zeroed : Fin 8 → Bool} (hzeroed : ∀ i, zeroed i = true) :
    (State.start zeroed).Held := by
  have hnull (i : Fin 8) : (State.start zeroed).gamepads i = .null := if_pos (hzeroed i)
  refine ⟨fun i => .inl (hnull i), fun n hn => absurd hn (Nat.not_lt_zero n), fun i j n hi => ?_⟩
  rw [hnull] at hi
  cases hi

/-- The first gamepad is made in a state without any. -/
theorem running_start {zeroed : Fin 8 → Bool} (hzeroed : ∀ i ≠ 0, zeroed i = true) :
    ({ (State.start zeroed).create 0 with phase := .running } : State).Running := by
  have hself := (State.start zeroed).gamepads_create_self 0
  have hother (i : Fin 8) (hi : i ≠ 0) : ((State.start zeroed).create 0).gamepads i = .null := by
    rw [(State.start zeroed).gamepads_create_of_ne hi]
    exact if_pos (hzeroed i hi)
  have hmade (i : Fin 8) (n : Nat) (hi : ((State.start zeroed).create 0).gamepads i = .made n) :
      i = 0 := by
    by_contra hne
    rw [hother i hne] at hi
    cases hi
  refine ⟨⟨fun i => ?_, fun n hn => ?_, fun i j n hi hj => (hmade i n hi).trans (hmade j n hj).symm⟩,
    fun i hi => ?_, fun i n hi => ?_, ?_⟩
  · by_cases hi : i = 0
    · subst hi
      exact .inr ⟨0, Nat.one_pos, hself⟩
    · exact .inl (hother i hi)
  · obtain rfl := Nat.lt_one_iff.mp hn
    exact ⟨0, hself⟩
  · have hne : i ≠ 0 := by
      rintro rfl
      rw [hself] at hi
      cases hi
    simp [State.create, State.start, hne.symm]
  · rw [hmade i n hi]
    rfl
  · exact initialised_nil.concat nofun

/-! ### All runs -/

variable {zeroed : Fin 8 → Bool}

/-- What holds whatever happens: the gamepads in the slots have been made, and a slot that was not
empty at first stays as it was. -/
structure State.Old (zeroed : Fin 8 → Bool) (s : State) : Prop where
  bounded (i : Fin 8) (n : Nat) : s.gamepads i = .made n → n < s.created
  stuck (i : Fin 8) : i ≠ 0 → zeroed i = false → s.gamepads i = .garbage

theorem State.Old.start (zeroed : Fin 8 → Bool) : (State.start zeroed).Old zeroed where
  bounded i n hi := by
    rw [State.start] at hi
    dsimp only at hi
    split at hi <;> cases hi
  stuck i _ hi := by
    rw [State.start]
    exact if_neg (by simp [hi])

theorem State.Old.create (h : s.Old zeroed) {i : Fin 8} (hi : i = 0 ∨ s.gamepads i = .null) :
    (s.create i).Old zeroed where
  bounded j n hj := by
    by_cases hne : j = i
    · subst hne
      rw [s.gamepads_create_self] at hj
      cases hj
      exact Nat.lt_succ_self _
    · rw [s.gamepads_create_of_ne hne] at hj
      exact Nat.lt_succ_of_lt (h.bounded j n hj)
  stuck j hj hzeroed := by
    have hgarbage := h.stuck j hj hzeroed
    have hne : j ≠ i := by
      rintro rfl
      rcases hi with h0 | hnull
      · exact hj h0
      · rw [hnull] at hgarbage
        cases hgarbage
    rw [s.gamepads_create_of_ne hne]
    exact hgarbage

theorem State.Old.update (h : s.Old zeroed) (i : Fin 8) (write : Bool) : (s.update i write).Old zeroed := by
  rw [State.update]
  split
  · exact ⟨h.bounded, h.stuck⟩
  · exact ⟨h.bounded, h.stuck⟩

theorem State.Old.inputRecvEvent (h : s.Old zeroed) (device : Nat) (create write : Bool) :
    (inputRecvEvent s device create write).Old zeroed := by
  rw [Slots.inputRecvEvent]
  split
  · split
    · next hnull =>
      split
      · exact (h.create (.inr hnull)).update _ write
      · exact ⟨h.bounded, h.stuck⟩
    · exact h.update _ write
    · exact ⟨h.bounded, h.stuck⟩
  · exact h

theorem phase_inputRecvEvent (s : State) (device : Nat) (create write : Bool) :
    (inputRecvEvent s device create write).phase = s.phase ∨
      (inputRecvEvent s device create write).phase = .ended := by
  have hupdate (s : State) (i : Fin 8) : (s.update i write).phase = s.phase ∨
      (s.update i write).phase = .ended := by
    rw [State.update]
    split
    · exact .inl rfl
    · exact .inr rfl
  rw [inputRecvEvent]
  split
  · split
    · split
      · exact hupdate _ _
      · exact .inr rfl
    · exact hupdate _ _
    · exact .inr rfl
  · exact .inl rfl

/-- What one step of each kind is. -/
theorem next_cases {step : Step} (h : s.next step = some t) :
    (s.phase = .starting ∧ step = .start true ∧ t = { s.create 0 with phase := .running }) ∨
    (s.phase = .starting ∧ step = .start false ∧ t = { s.record (.init 0) with
      gamepads := Function.update s.gamepads 0 .null, destroyed := none, phase := .ended }) ∨
    (s.phase = .running ∧ ∃ device create write, step = .event device create write ∧
      t = inputRecvEvent s device create write) ∨
    (s.phase = .running ∧ step = .cancel ∧ t = s.cleanup) ∨
    (∃ i created, (s.phase = .starting ∧ i = 0 ∨ s.phase = .running ∧ s.gamepads i = .null) ∧
      step = .cancelInit i created ∧
      t = { (s.record (.init i)).cleanup with created := s.created + created.toNat }) := by
  cases step with
  | start created =>
      obtain ⟨hphase, h⟩ := Option.ite_none_right_eq_some.mp h
      cases created with
      | true => exact .inl ⟨hphase, rfl, (Option.some.inj h).symm⟩
      | false => exact .inr (.inl ⟨hphase, rfl, (Option.some.inj h).symm⟩)
  | event device create write =>
      obtain ⟨hphase, h⟩ := Option.ite_none_right_eq_some.mp h
      exact .inr (.inr (.inl ⟨hphase, device, create, write, rfl, (Option.some.inj h).symm⟩))
  | cancel =>
      obtain ⟨hphase, h⟩ := Option.ite_none_right_eq_some.mp h
      exact .inr (.inr (.inr (.inl ⟨hphase, rfl, (Option.some.inj h).symm⟩)))
  | cancelInit i created =>
      obtain ⟨hcalled, h⟩ := Option.ite_none_right_eq_some.mp h
      exact .inr (.inr (.inr (.inr ⟨i, created, hcalled, rfl, (Option.some.inj h).symm⟩)))

/-- Nothing comes after the end. -/
theorem not_next_ended (hended : s.phase = .ended) {step : Step} : s.next step ≠ some t := by
  intro hstep
  rcases next_cases hstep with ⟨hphase, -⟩ | ⟨hphase, -⟩ | ⟨hphase, -⟩ | ⟨hphase, -⟩ |
    ⟨i, created, ⟨hphase, -⟩ | ⟨hphase, -⟩, -⟩
  all_goals
    rw [hended] at hphase
    cases hphase

theorem State.Old.next (h : s.Old zeroed) {step : Step} (hstep : s.next step = some t) :
    t.Old zeroed := by
  rcases next_cases hstep with ⟨-, -, rfl⟩ | ⟨-, -, rfl⟩ | ⟨-, device, create, write, -, rfl⟩ |
    ⟨-, -, rfl⟩ | ⟨i, created, -, -, rfl⟩
  · have hcreate := h.create (i := 0) (.inl rfl)
    exact ⟨hcreate.bounded, hcreate.stuck⟩
  · refine ⟨fun i n hi => ?_, fun i hne hzeroed => ?_⟩
    · by_cases hzero : i = 0
      · subst hzero
        replace hi : Function.update s.gamepads 0 .null 0 = .made n := hi
        rw [Function.update_self] at hi
        cases hi
      · exact h.bounded i n ((Function.update_of_ne hzero ..).symm.trans hi)
    · exact (Function.update_of_ne hne ..).trans (h.stuck i hne hzeroed)
  · exact h.inputRecvEvent device create write
  · exact ⟨h.bounded, h.stuck⟩
  · exact ⟨fun i n hi => Nat.lt_add_right _ (h.bounded i n hi), h.stuck⟩

/-- The gamepads that were made have not been destroyed, each once. -/
def State.Broken (s : State) : Prop :=
  s.phase = .ended ∧
    ¬ ∃ destroyed, s.destroyed = some destroyed ∧ destroyed.Perm ((List.range s.created).map .made)

/-- A step that is not clean ends everything. -/
theorem broken_of_not_clean (h : s.Old zeroed) {step : Step} (hstep : s.next step = some t)
    (hclean : ¬ step.Clean) : t.Broken := by
  rcases next_cases hstep with ⟨-, rfl, -⟩ | ⟨-, -, rfl⟩ | ⟨-, device, create, write, rfl, -⟩ |
    ⟨-, rfl, -⟩ | ⟨i, created, -, rfl, rfl⟩
  · exact absurd rfl hclean
  · exact ⟨rfl, fun ⟨destroyed, hnone, _⟩ => by cases hnone⟩
  · exact absurd trivial hclean
  · exact absurd trivial hclean
  · obtain rfl : created = true := Bool.eq_true_of_not_eq_false hclean
    refine ⟨rfl, fun ⟨destroyed, hsome, hperm⟩ => ?_⟩
    cases hsome
    -- the new gamepad is in no slot
    have hmem : Pointer.made s.created ∈
        ((List.finRange 8).filter fun i => s.gamepads i ≠ .null).map s.gamepads := by
      refine hperm.mem_iff.mpr (List.mem_map.mpr ⟨s.created, ?_, rfl⟩)
      exact List.mem_range.mpr (Nat.lt_succ_self _)
    obtain ⟨j, -, hj⟩ := List.mem_map.mp hmem
    exact Nat.lt_irrefl _ (h.bounded j _ hj)

theorem State.Kept.next (h : s.Kept) {step : Step} (hstep : s.next step = some t) (hclean : step.Clean) :
    t.Kept := by
  rcases h with ⟨hphase, h⟩ | ⟨hphase, -⟩
  · rcases next_cases hstep with ⟨hstart, -⟩ | ⟨hstart, -⟩ | ⟨-, device, create, write, -, rfl⟩ |
      ⟨-, -, rfl⟩ | ⟨i, created, -, rfl, rfl⟩
    · rw [hphase] at hstart
      cases hstart
    · rw [hphase] at hstart
      cases hstart
    · exact h.inputRecvEvent hphase device create write
    · exact .inr ⟨rfl, h.held.cleanup_sound h.inits⟩
    · obtain rfl : created = false := hclean
      exact .inr ⟨rfl, (h.held.record _).cleanup_sound (h.inits.concat nofun)⟩
  · exact absurd hstep (not_next_ended hphase)

/-- What is known of a state by the steps that led to it. -/
structure Traced (zeroed : Fin 8 → Bool) (trace : List Step) (s : State) : Prop where
  old : s.Old zeroed
  started : trace = [] ∧ s = .start zeroed ∨ trace ≠ [] ∧ s.phase ≠ .starting
  first : trace.head? = some (.cancelInit 0 false) →
    s.phase = .ended ∧ s.gamepads 0 = (State.start zeroed).gamepads 0
  broken : (∃ step ∈ trace, ¬ step.Clean) → s.Broken
  kept : Clean zeroed trace → trace ≠ [] → s.Kept

theorem Traced.next {trace : List Step} (h : Traced zeroed trace s) {step : Step}
    (hstep : s.next step = some t) : Traced zeroed (trace ++ [step]) t where
  old := h.old.next hstep
  started := by
    refine .inr ⟨by simp, ?_⟩
    rcases next_cases hstep with ⟨-, -, rfl⟩ | ⟨-, -, rfl⟩ | ⟨hphase, device, create, write, -, rfl⟩ |
      ⟨-, -, rfl⟩ | ⟨i, created, -, -, rfl⟩
    · exact nofun
    · exact nofun
    · rcases phase_inputRecvEvent s device create write with hsame | hended
      · rw [hsame, hphase]
        exact nofun
      · rw [hended]
        exact nofun
    · exact nofun
    · exact nofun
  first := by
    intro hhead
    rcases h.started with ⟨rfl, rfl⟩ | ⟨hsome, -⟩
    · obtain rfl : step = .cancelInit 0 false := Option.some.inj hhead
      obtain rfl := Option.some.inj hstep
      exact ⟨rfl, rfl⟩
    · rw [List.head?_append_of_ne_nil _ hsome] at hhead
      exact absurd hstep (not_next_ended (h.first hhead).1)
  broken := by
    rintro ⟨bad, hmem, hbad⟩
    rcases List.mem_append.mp hmem with hold | hnew
    · -- nothing happens after such a step
      exact absurd hstep (not_next_ended (h.broken ⟨bad, hold, hbad⟩).1)
    · obtain rfl := List.mem_singleton.mp hnew
      exact broken_of_not_clean h.old hstep hbad
  kept := by
    intro hclean _
    have hlast := hclean.steps step (List.mem_append_right _ (List.mem_singleton.mpr rfl))
    have hzeroed := hclean.others (by simp)
    rcases h.started with ⟨rfl, rfl⟩ | ⟨hsome, -⟩
    · rcases next_cases hstep with ⟨-, -, rfl⟩ | ⟨-, rfl, -⟩ | ⟨hphase, -⟩ | ⟨hphase, -⟩ |
        ⟨i, created, ⟨-, rfl⟩ | ⟨hphase, -⟩, rfl, rfl⟩
      · exact .inl ⟨rfl, running_start hzeroed⟩
      · cases hlast
      · cases hphase
      · cases hphase
      · obtain rfl : created = false := hlast
        have hheld : (State.start zeroed).Held := held_start fun i => by
          by_cases hi : i = 0
          · exact hi ▸ hclean.first rfl
          · exact hzeroed i hi
        exact .inr ⟨rfl, (hheld.record _).cleanup_sound (initialised_nil.concat nofun)⟩
      · cases hphase
    · refine (h.kept ⟨fun _ => hzeroed, fun hhead => hclean.first ?_, fun bad hmem => ?_⟩ hsome).next
        hstep hlast
      · rw [List.head?_append_of_ne_nil _ hsome]
        exact hhead
      · exact hclean.steps bad (List.mem_append_left _ hmem)

end Slots

end Stratus.Input
