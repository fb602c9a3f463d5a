import Mathlib.Algebra.GroupWithZero.Nat
import Mathlib.Algebra.Ring.Int.Defs
import Mathlib.Data.List.Flatten
import Stratus.Lib.History
import Stratus.Lib.Splice
import Stratus.Lib.Transition

/-! `audioStream.worklet.js`: frames of any length are cut into what the browser asks for. -/
namespace Stratus.Frontend

open Stratus.Lib

namespace AudioRenderer

variable {α : Type}

/-- The samples of each channel. -/
structure Frame (α : Type) where
  channels : List (List α)
  numberOfFrames : Nat
  nonempty : channels ≠ []
  length_eq : ∀ channel ∈ channels, channel.length = numberOfFrames

inductive Message (α : Type) where
  | frame (frame : Frame α)
  | reset
  | close
  | other

/-- What the browser gives to be written to, with anything in it. -/
structure Output (α : Type) where
  channels : List (List α)
  frameLength : Nat
  length_eq : ∀ channel ∈ channels, channel.length = frameLength
  frameLength_eq : frameLength = (channels.headD []).length

structure Renderer (α : Type) where
  frames : List (Frame α)
  currentFrameOffset : Nat
  isClosed : Bool

namespace Renderer

def start : Renderer α := ⟨[], 0, false⟩

def handlePortMessage (r : Renderer α) : Message α → Renderer α
  | .frame frame => { r with frames := r.frames ++ [frame] }
  | .reset => { r with frames := [], currentFrameOffset := 0 }
  | .close => ⟨[], 0, true⟩
  | .other => r

/-- After `copied` samples of the first frame. -/
def advance (r : Renderer α) (frame : Frame α) (frames : List (Frame α)) (copied : Nat) : Renderer α :=
  if r.currentFrameOffset + copied ≥ frame.numberOfFrames then
    { r with frames := frames, currentFrameOffset := 0 }
  else { r with currentFrameOffset := r.currentFrameOffset + copied }

end Renderer

/-- The first channel stands for one that is absent. -/
def Frame.source (frame : Frame α) (channel : Nat) : List α :=
  frame.channels.getD channel (frame.channels.headD [])

variable [Zero α]

def clearOutput (output : List (List α)) (offset : Nat) : List (List α) :=
  output.map fun channel => channel.take offset ++ List.replicate (channel.length - offset) 0

/-- The loop of `process`; `none` where it has not ended after so many rounds. -/
def fill : Nat → Renderer α → List (List α) → Nat → Nat → Option (Renderer α × List (List α))
  | 0, _, _, _, _ => none
  | rounds + 1, r, output, frameLength, written =>
      if written < frameLength then
        match r.frames with
        | [] => some (r, clearOutput output written)
        | frame :: frames =>
            let available := frame.numberOfFrames - r.currentFrameOffset
            let toCopy := min (frameLength - written) available
            let copied := output.mapIdx fun channel samples =>
              splice samples written (slice (frame.source channel) r.currentFrameOffset toCopy)
            fill rounds (r.advance frame frames toCopy) copied frameLength (written + toCopy)
      else some (r, output)

/-- Whether the browser shall call again, and what is in its output then. -/
def Renderer.process (r : Renderer α) (rounds : Nat) (output : Option (Output α)) :
    Option (Bool × Renderer α × List (List α)) :=
  match output with
  | none => some (!r.isClosed, r, [])
  | some output =>
      if r.isClosed then some (!r.isClosed, r, output.channels)
      else (fill rounds r output.channels output.frameLength 0).map fun filled => (true, filled)

/-! ### Calls -/

/-- What is `given` has `channels` in it after the call. `queued` samples had not been played before,
after `position` that had. -/
structure Call (α : Type) where
  position : Nat
  queued : Nat
  frameLength : Nat
  given : List (List α)
  channels : List (List α)

def Call.copied (call : Call α) : Nat := min call.frameLength call.queued

/-- `arrived` and `calls` are since the last reset. -/
structure Player (α : Type) where
  renderer : Renderer α
  arrived : List (Frame α)
  calls : List (Call α)

inductive Event (α : Type) where
  | message (message : Message α)
  | process (rounds : Nat) (output : Option (Output α))

def Renderer.queued (r : Renderer α) : Nat :=
  (r.frames.map Frame.numberOfFrames).sum - r.currentFrameOffset

namespace Player

def start : Player α := ⟨.start, [], []⟩

/-- How much has been played. -/
def played (s : Player α) : Nat := (s.calls.map Call.copied).sum

def onMessage (s : Player α) (message : Message α) : Player α :=
  let renderer := s.renderer.handlePortMessage message
  match message with
  | .frame frame => { s with renderer := renderer, arrived := s.arrived ++ [frame] }
  | .reset => ⟨renderer, [], []⟩
  | _ => { s with renderer := renderer }

def onProcess (s : Player α) (rounds : Nat) (output : Option (Output α)) : Option (Player α) :=
  (s.renderer.process rounds output).map fun (_, renderer, channels) =>
    match output with
    | none => { s with renderer := renderer }
    | some output =>
        if s.renderer.isClosed then { s with renderer := renderer }
        else
          { s with
            renderer := renderer
            calls := s.calls ++
              [⟨s.played, s.renderer.queued, output.frameLength, output.channels, channels⟩] }

/-- `none` where `process` is not done in the rounds it is given. -/
def next (s : Player α) : Event α → Option (Player α)
  | .message message => some (s.onMessage message)
  | .process rounds output => s.onProcess rounds output

/-- All samples that have arrived for a channel. -/
def samples (s : Player α) (channel : Nat) : List α := s.arrived.flatMap (Frame.source · channel)

end Player

def player (α : Type) [Zero α] : Labelled (Player α) (Event α) where
  init s := s = .start
  step s event t := s.next event = some t

/-! ### Columns -/

/-- What all channels have at a time. -/
def Frame.columns (frame : Frame α) : List (Nat → α) :=
  (List.range frame.numberOfFrames).map fun k channel => (frame.source channel).getD k 0

def Renderer.pending (r : Renderer α) : List (Nat → α) :=
  (r.frames.flatMap Frame.columns).drop r.currentFrameOffset

/-- No frame that has been played stays. -/
def Renderer.Within (r : Renderer α) : Prop :=
  r.currentFrameOffset = 0 ∨ ∃ frame ∈ r.frames.head?, r.currentFrameOffset < frame.numberOfFrames

omit [Zero α] in
theorem length_source (frame : Frame α) (channel : Nat) :
    (frame.source channel).length = frame.numberOfFrames := by
  refine frame.length_eq _ ?_
  have hhead : frame.channels.headD [] ∈ frame.channels := by
    obtain ⟨first, rest, hchannels⟩ := List.exists_cons_of_ne_nil frame.nonempty
    rw [hchannels]
    exact List.mem_cons_self
  rw [Frame.source, List.getD_eq_getElem?_getD]
  cases hget : frame.channels[channel]? with
  | none => exact hhead
  | some samples => exact List.mem_of_getElem? hget

theorem length_columns (frame : Frame α) : frame.columns.length = frame.numberOfFrames := by
  rw [Frame.columns, List.length_map, List.length_range]

theorem map_columns (frame : Frame α) (channel : Nat) :
    frame.columns.map (· channel) = frame.source channel := by
  refine List.ext_getElem ?_ fun k hk hk' => ?_
  · rw [List.length_map, length_columns, length_source]
  · simp [Frame.columns, hk']

theorem map_flatMap_columns (frames : List (Frame α)) (channel : Nat) :
    (frames.flatMap Frame.columns).map (· channel) = frames.flatMap (Frame.source · channel) := by
  rw [List.map_flatMap]
  exact List.flatMap_congr fun frame _ => map_columns frame channel

theorem length_pending (r : Renderer α) : r.pending.length = r.queued := by
  rw [Renderer.pending, Renderer.queued, List.length_drop, List.length_flatMap]
  simp only [length_columns]

/-! ### The loop -/

/-- What a channel has after the columns that there are, and silence where there are none. -/
def render (columns : List (Nat → α)) (frameLength written channel : Nat) (samples : List α) : List α :=
  samples.take written ++ ((columns.take (frameLength - written)).map (· channel) ++
    List.replicate (frameLength - written - columns.length) 0)

variable {r r' : Renderer α} {output output' : List (List α)} {frameLength written : Nat}

/-- One round writes as many columns as the first frame still has. -/
theorem render_splice (columns : List (Nat → α)) {copied channel : Nat} {samples : List α}
    (hwritten : written + copied ≤ samples.length) (hcopied : copied ≤ columns.length) :
    render (columns.drop copied) samples.length (written + copied) channel
        (splice samples written ((columns.take copied).map (· channel))) =
      render columns samples.length written channel samples := by
  have hlength : ((columns.take copied).map (· channel)).length = copied := by
    rw [List.length_map, List.length_take, Nat.min_eq_left hcopied]
  have htake := take_splice (x := (columns.take copied).map (· channel))
    (Nat.le_trans (Nat.le_add_right written copied) hwritten)
  rw [hlength] at htake
  have hsplit : samples.length - written = copied + (samples.length - (written + copied)) := by omega
  have hzeros : samples.length - (written + copied) - (columns.length - copied) =
      samples.length - written - columns.length := by omega
  rw [render, render, htake, List.length_drop, hzeros, List.append_assoc, ← List.append_assoc (List.map _ _),
    ← List.map_append, ← List.take_add, ← hsplit]

omit [Zero α] in
theorem Renderer.Within.offset_le {frame : Frame α} {frames : List (Frame α)} (h : r.Within)
    (hframes : r.frames = frame :: frames) : r.currentFrameOffset ≤ frame.numberOfFrames := by
  rcases h with hzero | ⟨head, hhead, hlt⟩
  · rw [hzero]
    exact Nat.zero_le _
  · rw [hframes] at hhead
    obtain rfl := Option.some.inj hhead
    exact hlt.le

theorem Renderer.Within.offset_le_length (h : r.Within) :
    r.currentFrameOffset ≤ (r.frames.flatMap Frame.columns).length := by
  rcases h with hzero | ⟨head, hhead, hlt⟩
  · rw [hzero]
    exact Nat.zero_le _
  · obtain ⟨frames, hframes⟩ := List.head?_eq_some_iff.mp hhead
    rw [hframes, List.flatMap_cons, List.length_append, length_columns]
    exact hlt.le.trans (Nat.le_add_right _ _)

theorem advance_spec {frame : Frame α} {frames : List (Frame α)} {copied : Nat} (hwithin : r.Within)
    (hframes : r.frames = frame :: frames) (hcopied : copied ≤ frame.numberOfFrames - r.currentFrameOffset) :
    (r.advance frame frames copied).Within ∧ (r.advance frame frames copied).isClosed = r.isClosed ∧
      (r.advance frame frames copied).pending = r.pending.drop copied := by
  have hle := hwithin.offset_le hframes
  rw [Renderer.advance]
  split
  · next hend =>
    refine ⟨.inl rfl, rfl, ?_⟩
    have hall : r.currentFrameOffset + copied = frame.columns.length := by
      rw [length_columns]
      omega
    rw [Renderer.pending, Renderer.pending, hframes, List.drop_drop, List.flatMap_cons, hall,
      List.drop_left' rfl, List.drop_zero]
  · next hmore =>
    refine ⟨.inr ⟨frame, by rw [hframes]; rfl, Nat.lt_of_not_ge hmore⟩, rfl, ?_⟩
    rw [Renderer.pending, Renderer.pending, List.drop_drop]

/-- What a round copies. -/
theorem slice_source {frame : Frame α} {frames : List (Frame α)} {copied : Nat} (hwithin : r.Within)
    (hframes : r.frames = frame :: frames) (hcopied : copied ≤ frame.numberOfFrames - r.currentFrameOffset)
    (channel : Nat) : slice (frame.source channel) r.currentFrameOffset copied =
      (r.pending.take copied).map (· channel) := by
  have hle := hwithin.offset_le hframes
  have hdrop : r.pending = frame.columns.drop r.currentFrameOffset ++ frames.flatMap Frame.columns := by
    rw [Renderer.pending, hframes, List.flatMap_cons, List.drop_append_of_le_length]
    rw [length_columns]
    exact hle
  rw [hdrop, List.take_append_of_le_length, List.map_take, List.map_drop, map_columns, slice]
  rw [List.length_drop, length_columns]
  exact hcopied

theorem le_pending {frame : Frame α} {frames : List (Frame α)} (hframes : r.frames = frame :: frames) :
    frame.numberOfFrames - r.currentFrameOffset ≤ r.pending.length := by
  rw [length_pending, Renderer.queued, hframes, List.map_cons, List.sum_cons]
  omega

theorem fill_succ {rounds : Nat} (hlt : written < frameLength) {frame : Frame α} {frames : List (Frame α)}
    (hframes : r.frames = frame :: frames) {copied : Nat}
    (hcopied : copied = min (frameLength - written) (frame.numberOfFrames - r.currentFrameOffset)) :
    fill (rounds + 1) r output frameLength written =
      fill rounds (r.advance frame frames copied)
        (output.mapIdx fun channel samples =>
          splice samples written (slice (frame.source channel) r.currentFrameOffset copied))
        frameLength (written + copied) := by
  subst hcopied
  rw [fill, if_pos hlt, hframes]

theorem fill_spec {rounds : Nat} (hwithin : r.Within)
    (houtput : ∀ samples ∈ output, samples.length = frameLength) (hwritten : written ≤ frameLength)
    (h : fill rounds r output frameLength written = some (r', output')) :
    r'.Within ∧ r'.isClosed = r.isClosed ∧ r'.pending = r.pending.drop (frameLength - written) ∧
      output' = output.mapIdx (render r.pending frameLength written) := by
  induction rounds generalizing r output written with
  | zero => cases h
  | succ rounds ih =>
      by_cases hlt : written < frameLength
      · cases hframes : r.frames with
        | nil =>
            rw [fill, if_pos hlt, hframes] at h
            obtain ⟨rfl, rfl⟩ := Prod.mk.inj (Option.some.inj h)
            have hpending : r.pending = [] := by
              rw [Renderer.pending, hframes, List.flatMap_nil, List.drop_nil]
            refine ⟨hwithin, rfl, ?_, ?_⟩
            · rw [hpending, List.drop_nil]
            · rw [hpending]
              refine (List.mapIdx_eq_iff.mpr fun channel => ?_).symm
              rw [clearOutput, List.getElem?_map]
              refine Option.map_congr fun samples hsamples => ?_
              rw [render, houtput samples (List.mem_of_getElem? hsamples)]
              simp
        | cons frame frames =>
            obtain ⟨copied, hcopied⟩ : ∃ copied,
                copied = min (frameLength - written) (frame.numberOfFrames - r.currentFrameOffset) := ⟨_, rfl⟩
            rw [fill_succ hlt hframes hcopied] at h
            have hframe : copied ≤ frame.numberOfFrames - r.currentFrameOffset := by omega
            obtain ⟨hwithin', hclosed, hpending⟩ := advance_spec hwithin hframes hframe
            have hqueued := hframe.trans (le_pending hframes)
            have hslice := slice_source hwithin hframes hframe
            simp only [hslice] at h
            have hlengths : ∀ samples ∈ output.mapIdx fun channel samples =>
                splice samples written ((r.pending.take copied).map (· channel)),
                samples.length = frameLength := by
              intro samples hsamples
              obtain ⟨channel, hchannel, rfl⟩ := List.mem_mapIdx.mp hsamples
              have hlength := houtput _ (List.getElem_mem hchannel)
              rw [length_splice, hlength]
              rw [List.length_map, List.length_take, hlength]
              omega
            obtain ⟨hend, hsame, hrest, hrender⟩ := ih hwithin' hlengths (by omega) h
            refine ⟨hend, hsame.trans hclosed, ?_, ?_⟩
            · rw [hrest, hpending, List.drop_drop]
              congr 1
              omega
            · rw [hrender, List.mapIdx_mapIdx, hpending, List.mapIdx_eq_mapIdx_iff]
              intro channel hchannel
              obtain rfl := houtput _ (List.getElem_mem hchannel)
              exact render_splice _ (by omega) hqueued
      · obtain rfl : written = frameLength := by omega
        rw [fill, if_neg hlt] at h
        obtain ⟨rfl, rfl⟩ := Prod.mk.inj (Option.some.inj h)
        refine ⟨hwithin, rfl, ?_, ?_⟩
        · rw [Nat.sub_self, List.drop_zero]
        · refine (List.mapIdx_eq_iff.mpr fun channel => ?_).symm
          refine Eq.trans Option.map_id'.symm (Option.map_congr fun samples hsamples => ?_)
          rw [render, ← houtput samples (List.mem_of_getElem? hsamples)]
          simp

theorem isSome_fill {rounds : Nat} (hrounds : r.frames.length + 2 ≤ rounds) :
    (fill rounds r output frameLength written).isSome := by
  induction rounds generalizing r output written with
  | zero => omega
  | succ rounds ih =>
      by_cases hlt : written < frameLength
      · cases hframes : r.frames with
        | nil =>
            rw [fill, if_pos hlt, hframes]
            rfl
        | cons frame frames =>
            rw [fill_succ hlt hframes rfl]
            rw [hframes, List.length_cons] at hrounds
            rw [Renderer.advance]
            split
            · refine ih ?_
              change frames.length + 2 ≤ rounds
              omega
            · -- all has been written
              obtain ⟨rounds, rfl⟩ := Nat.exists_eq_add_of_le' (show 1 ≤ rounds by omega)
              rw [fill, if_neg (by omega)]
              rfl
      · rw [fill, if_neg hlt]
        rfl

/-! ### All runs -/

/-- What was played of a channel in a call, and silence after it. -/
def Call.rendered (call : Call α) (samples : List α) : List α :=
  slice samples call.position call.copied ++ List.replicate (call.frameLength - call.copied) 0

namespace Player

variable {s t : Player α}

/-- Calls play the samples of each channel one after another, and nothing else. -/
structure Continuous (s : Player α) : Prop where
  offset : s.renderer.currentFrameOffset = 0 ∨
    ∃ frame ∈ s.renderer.frames.head?, s.renderer.currentFrameOffset < frame.numberOfFrames
  written : ∀ call ∈ s.calls, call.channels =
    call.given.mapIdx fun channel _ => call.rendered (s.samples channel)
  whole : ∀ call ∈ s.calls, ∀ samples ∈ call.channels, samples.length = call.frameLength
  position : Proper (fun before call => call.position = (before.map Call.copied).sum) s.calls
  played (channel : Nat) : (∀ call ∈ s.calls, channel < call.channels.length) →
    (s.calls.flatMap fun call => (call.channels.getD channel []).take call.copied) =
      (s.samples channel).take s.played
  queued (channel : Nat) : s.renderer.pending.map (· channel) = (s.samples channel).drop s.played
  returns (output : Option (Output α)) : ∃ enough, ∀ rounds, enough ≤ rounds →
    (s.renderer.process rounds output).isSome

/-- What all samples that have arrived are in time. -/
def columns (s : Player α) : List (Nat → α) := s.arrived.flatMap Frame.columns

structure Inv (s : Player α) : Prop where
  within : s.renderer.Within
  pending : s.renderer.pending = s.columns.drop s.played
  played_le : s.played ≤ s.columns.length
  arrived : ∀ call ∈ s.calls, call.position + call.copied ≤ s.columns.length
  written : ∀ call ∈ s.calls, call.channels =
    call.given.mapIdx fun channel _ => call.rendered (s.samples channel)
  position : Proper (fun before call => call.position = (before.map Call.copied).sum) s.calls

theorem map_columns (s : Player α) (channel : Nat) : s.columns.map (· channel) = s.samples channel :=
  map_flatMap_columns s.arrived channel

theorem length_samples (s : Player α) (channel : Nat) : (s.samples channel).length = s.columns.length := by
  rw [← map_columns, List.length_map]

theorem inv_start : (start : Player α).Inv where
  within := .inl rfl
  pending := rfl
  played_le := Nat.le_refl 0
  arrived := nofun
  written := nofun
  position := .nil

theorem Inv.onFrame (h : s.Inv) (frame : Frame α) : (s.onMessage (.frame frame)).Inv := by
  have hcolumns : (s.onMessage (.frame frame)).columns = s.columns ++ frame.columns := by
    change (s.arrived ++ [frame]).flatMap Frame.columns = _
    rw [List.flatMap_append, List.flatMap_singleton]
    rfl
  have hsamples (channel : Nat) :
      (s.onMessage (.frame frame)).samples channel = s.samples channel ++ frame.source channel := by
    change (s.arrived ++ [frame]).flatMap _ = _
    rw [List.flatMap_append, List.flatMap_singleton]
    rfl
  refine ⟨?_, ?_, ?_, fun call hcall => ?_, fun call hcall => ?_, h.position⟩
  · rcases h.within with hzero | ⟨head, hhead, hlt⟩
    · exact .inl hzero
    · refine .inr ⟨head, ?_, hlt⟩
      change head ∈ (s.renderer.frames ++ [frame]).head?
      rw [List.head?_append, Option.mem_def.mp hhead]
      rfl
  · change _ = List.drop s.played _
    rw [hcolumns, List.drop_append_of_le_length h.played_le, ← h.pending]
    change ((s.renderer.frames ++ [frame]).flatMap Frame.columns).drop s.renderer.currentFrameOffset = _
    rw [List.flatMap_append, List.flatMap_singleton, List.drop_append_of_le_length h.within.offset_le_length]
    rfl
  · rw [hcolumns, List.length_append]
    exact h.played_le.trans (Nat.le_add_right _ _)
  · rw [hcolumns, List.length_append]
    exact (h.arrived call hcall).trans (Nat.le_add_right _ _)
  · refine (h.written call hcall).trans (List.mapIdx_eq_mapIdx_iff.mpr fun channel hchannel => ?_)
    rw [hsamples, Call.rendered, Call.rendered, slice_of_append]
    rw [length_samples]
    exact h.arrived call hcall

theorem Inv.queued_eq (h : s.Inv) : s.renderer.queued = s.columns.length - s.played := by
  rw [← length_pending, h.pending, List.length_drop]

/-- What the loop writes is what the call should play. -/
theorem Inv.render_eq (h : s.Inv) {call : Call α} (hposition : call.position = s.played)
    (hqueued : call.queued = s.renderer.queued) (channel : Nat) (given : List α) :
    render s.renderer.pending call.frameLength 0 channel given = call.rendered (s.samples channel) := by
  have hcopied : (s.columns.drop s.played).take call.frameLength = slice s.columns s.played call.copied := by
    rw [slice, List.take_eq_take_iff, List.length_drop, Call.copied, hqueued, h.queued_eq]
    omega
  have hzeros : call.frameLength - call.copied = call.frameLength - s.renderer.queued := by
    rw [Call.copied, hqueued]
    omega
  rw [render, List.take_zero, List.nil_append, Nat.sub_zero, length_pending, h.pending, hcopied,
    Call.rendered, hposition, hzeros, ← map_columns, slice, slice, List.map_take, List.map_drop]

theorem Inv.onProcess (h : s.Inv) (hopen : s.renderer.isClosed = false) {rounds : Nat}
    {output : Option (Output α)} (hstep : s.onProcess rounds output = some t) :
    t.Inv ∧ t.renderer.isClosed = false := by
  obtain ⟨⟨alive, renderer, channels⟩, hprocess, rfl⟩ := Option.map_eq_some_iff.mp hstep
  cases output with
  | none =>
      cases hprocess
      exact ⟨⟨h.within, h.pending, h.played_le, h.arrived, h.written, h.position⟩, hopen⟩
  | some output =>
      rw [Renderer.process, if_neg (by rw [hopen]; decide)] at hprocess
      obtain ⟨⟨renderer', channels'⟩, hfill, heq⟩ := Option.map_eq_some_iff.mp hprocess
      cases heq
      obtain ⟨hwithin, hclosed, hpending, hchannels⟩ :=
        fill_spec h.within output.length_eq (Nat.zero_le _) hfill
      rw [Nat.sub_zero] at hpending
      dsimp only
      rw [if_neg (by rw [hopen]; decide)]
      refine ⟨?_, hclosed.trans hopen⟩
      obtain ⟨call, hcall⟩ : ∃ call : Call α,
          call = ⟨s.played, s.renderer.queued, output.frameLength, output.channels, channels⟩ := ⟨_, rfl⟩
      rw [← hcall]
      have hplayed : ((s.calls ++ [call]).map Call.copied).sum = s.played + call.copied := by
        rw [List.map_append, List.sum_append, List.map_singleton, List.sum_singleton]
        rfl
      have hcopied : call.copied = min output.frameLength (s.columns.length - s.played) := by
        rw [hcall, Call.copied, h.queued_eq]
      have hle := h.played_le
      refine ⟨hwithin, ?_, ?_, fun call' hcall' => ?_, fun call' hcall' => ?_, h.position.snoc ?_⟩
      · change renderer.pending = s.columns.drop ((s.calls ++ [call]).map Call.copied).sum
        rw [hpending, h.pending, List.drop_drop, hplayed, hcopied, List.drop_eq_drop_iff]
        omega
      · change ((s.calls ++ [call]).map Call.copied).sum ≤ s.columns.length
        rw [hplayed, hcopied]
        omega
      · rcases List.mem_append.mp hcall' with hold | hnew
        · exact h.arrived call' hold
        · obtain rfl := List.mem_singleton.mp hnew
          change call'.position + call'.copied ≤ s.columns.length
          rw [hcopied, hcall]
          dsimp only
          omega
      · rcases List.mem_append.mp hcall' with hold | hnew
        · exact h.written call' hold
        · obtain rfl := List.mem_singleton.mp hnew
          have hrender := h.render_eq (congrArg Call.position hcall) (congrArg Call.queued hcall)
          rw [congrArg Call.channels hcall, congrArg Call.given hcall]
          refine hchannels.trans (List.mapIdx_eq_mapIdx_iff.mpr fun channel hchannel => ?_)
          have hframeLength : call'.frameLength = output.frameLength := congrArg Call.frameLength hcall
          rw [← hframeLength]
          exact hrender ..
      · rw [hcall]
        rfl

theorem open_of_next {event : Event α} (hstep : s.next event = some t)
    (hopen : t.renderer.isClosed = false) : s.renderer.isClosed = false := by
  cases event with
  | message message =>
      cases hstep
      cases message with
      | frame frame => exact hopen
      | reset => exact hopen
      | close => cases hopen
      | other => exact hopen
  | process rounds output =>
      refine Bool.eq_false_iff.mpr fun hclosed => ?_
      obtain ⟨⟨alive, renderer, channels⟩, hprocess, rfl⟩ := Option.map_eq_some_iff.mp hstep
      cases output with
      | none =>
          cases hprocess
          exact absurd (hopen.symm.trans hclosed) nofun
      | some output =>
          rw [Renderer.process, if_pos hclosed] at hprocess
          cases hprocess
          dsimp only at hopen
          rw [if_pos hclosed] at hopen
          exact absurd (hopen.symm.trans hclosed) nofun

theorem Inv.next (h : s.Inv) {event : Event α} (hstep : s.next event = some t)
    (hopen : t.renderer.isClosed = false) (hbefore : s.renderer.isClosed = false) : t.Inv := by
  cases event with
  | message message =>
      cases hstep
      cases message with
      | frame frame => exact h.onFrame frame
      | reset => exact ⟨.inl rfl, rfl, Nat.le_refl 0, nofun, nofun, .nil⟩
      | close => cases hopen
      | other => exact h
  | process rounds output => exact (h.onProcess hbefore hstep).1

theorem slice_rendered {call : Call α} {samples : List α}
    (h : call.position + call.copied ≤ samples.length) : (call.rendered samples).take call.copied = slice samples call.position call.copied := by
  rw [Call.rendered, List.take_left' (length_slice h)]

theorem length_rendered {call : Call α} {samples : List α}
    (h : call.position + call.copied ≤ samples.length) : (call.rendered samples).length = call.frameLength := by
  have hle : call.copied ≤ call.frameLength := Nat.min_le_left ..
  rw [Call.rendered, List.length_append, length_slice h, List.length_replicate]
  omega

theorem Inv.played_eq (h : s.Inv) (channel : Nat) (before after : List (Call α))
    (hcalls : s.calls = before ++ after) (hchannel : ∀ call ∈ before, channel < call.channels.length) :
    (before.flatMap fun call => (call.channels.getD channel []).take call.copied) =
      (s.samples channel).take (before.map Call.copied).sum := by
  induction before using List.reverseRecOn generalizing after with
  | nil => rfl
  | append_singleton before call ih =>
      rw [List.append_assoc, List.singleton_append] at hcalls
      have hmem : call ∈ s.calls := by
        rw [hcalls]
        exact List.mem_append_right _ List.mem_cons_self
      have hposition := h.position before call after hcalls
      have harrived := h.arrived call hmem
      rw [← length_samples s channel] at harrived
      have hlt := hchannel call (List.mem_append_right _ List.mem_cons_self)
      rw [List.flatMap_append, ih (call :: after) hcalls fun call hcall =>
        hchannel call (List.mem_append_left _ hcall), List.flatMap_singleton, List.map_append, List.sum_append,
        List.map_singleton, List.sum_singleton, List.take_add, ← hposition]
      rw [h.written call hmem, List.length_mapIdx] at hlt
      rw [h.written call hmem, List.getD_eq_getElem?_getD, List.getElem?_mapIdx,
        List.getElem?_eq_getElem hlt, Option.map_some, Option.getD_some, slice_rendered harrived]
      rfl

theorem Inv.continuous_of_inv (h : s.Inv) : s.Continuous where
  offset := h.within
  written := h.written
  whole call hcall samples hsamples := by
    rw [h.written call hcall] at hsamples
    obtain ⟨channel, hchannel, rfl⟩ := List.mem_mapIdx.mp hsamples
    refine length_rendered ?_
    rw [length_samples]
    exact h.arrived call hcall
  position := h.position
  played channel hchannel := h.played_eq channel s.calls [] (List.append_nil _).symm hchannel
  queued channel := by rw [h.pending, List.map_drop, map_columns]
  returns output := by
    refine ⟨s.renderer.frames.length + 2, fun rounds hrounds => ?_⟩
    cases output with
    | none => rfl
    | some output =>
        rw [Renderer.process]
        split
        · rfl
        · rw [Option.isSome_map]
          exact isSome_fill hrounds

/-- Since the last reset all samples have been played once and in order, and silence where there was
nothing to play. -/
theorem continuous {trace : List (Event α)} (hs : (player α).Run trace s)
    (hopen : s.renderer.isClosed = false) : s.Continuous := by
  have h : s.renderer.isClosed = false → s.Inv := by
    refine hs.always (fun s => s.renderer.isClosed = false → s.Inv) ?_ ?_
    · rintro _ rfl _
      exact inv_start
    · intro s event t hinv hstep hopen
      have hbefore := open_of_next hstep hopen
      exact (hinv hbefore).next hstep hopen hbefore
  exact (h hopen).continuous_of_inv

/-- Three samples are played two at a time. -/
def straddling : List (Event Int) :=
  [.message (.frame ⟨[[1, 2, 3], [4, 5, 6]], 3, by decide, by decide⟩),
    .process 4 (some ⟨[[9, 9], [9, 9]], 2, by decide, by decide⟩),
    .message (.frame ⟨[[]], 0, by decide, by decide⟩),
    .process 4 (some ⟨[[9, 9], [9, 9]], 2, by decide, by decide⟩)]

theorem straddling_continuous : ∃ s : Player Int, (player Int).Run straddling s ∧
    s.calls.map Call.channels = [[[1, 2], [4, 5]], [[3, 0], [6, 0]]] ∧ s.Continuous := by
  obtain ⟨s, hrun, hfacts⟩ : ∃ s : Player Int, (player Int).Run straddling s ∧
      (s.calls.map Call.channels, s.renderer.isClosed) = ([[[1, 2], [4, 5]], [[3, 0], [6, 0]]], false) :=
    Labelled.exists_run_next (by decide)
  obtain ⟨hcalls, hopen⟩ := Prod.mk.inj hfacts
  exact ⟨s, hrun, hcalls, continuous hrun hopen⟩

end Player

end AudioRenderer

end Stratus.Frontend
