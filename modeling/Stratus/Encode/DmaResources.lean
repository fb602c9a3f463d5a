import Stratus.Lib.Ledger
import Stratus.Lib.Transition

/-! What `encode_main` holds of EGL, of GL and of the heap while it handles frames in dma buffers. -/
namespace Stratus.Encode

open Stratus.Lib

namespace DmaResources

inductive Kind where
  | eglImage
  | texture
  | pixelData
deriving DecidableEq

/-- A resource that is made for a frame, of which each kind is made once. -/
structure Resource where
  kind : Kind
  frame : Nat
deriving DecidableEq

/-- How the calls for a frame end: whether there is an error at each point, or what
`encode_video_frame` returns. -/
structure Answers where
  malloc : Bool
  createImage : Bool
  bindError : Bool
  framebufferComplete : Bool
  readError : Bool
  encode : Int

/-- What a function does with the resources, and what it returns. -/
structure Call where
  acts : List (Act Resource)
  ret : Int

section Source

variable (frame : Nat) (answers : Answers)

/-- The label `cleanup`. -/
def cleanup : List (Act Resource) := [.release ⟨.texture, frame⟩, .release ⟨.eglImage, frame⟩]

/-- The texture is made, and bound to the image. -/
def bindTexture : List (Act Resource) :=
  [.acquire ⟨.texture, frame⟩, .use ⟨.texture, frame⟩, .use ⟨.eglImage, frame⟩]

def eglCaptureDmabufFrame : Call :=
  if !answers.createImage then ⟨[], -1⟩
  else
    let acts := .acquire ⟨.eglImage, frame⟩ :: bindTexture frame
    if answers.bindError then ⟨acts ++ cleanup frame, -1⟩
    else
      let acts := acts ++ [.use ⟨.texture, frame⟩]
      if !answers.framebufferComplete then ⟨acts ++ cleanup frame, -1⟩
      else
        let acts := acts ++ [.use ⟨.pixelData, frame⟩]
        if answers.readError then ⟨acts ++ cleanup frame, -1⟩ else ⟨acts, 0⟩

def dmaEncodeVideoFrame : Call :=
  if !answers.malloc then ⟨[], -1⟩
  else
    let capture := eglCaptureDmabufFrame frame answers
    let acts := .acquire ⟨.pixelData, frame⟩ :: capture.acts
    if capture.ret < 0 then ⟨acts, -1⟩
    else ⟨acts ++ [.use ⟨.pixelData, frame⟩, .release ⟨.pixelData, frame⟩], answers.encode⟩

end Source

/-- A turn of the loop of `encode_main`: the frame is dropped, is in shared memory, is in a dma
buffer, or has neither. -/
inductive Turn where
  | dropped
  | shm (encode : Int)
  | dma (answers : Answers)
  | neither

/-- What was done for each dma-backed frame so far, and whether an error has ended the loop. -/
structure State where
  calls : List (List (Act Resource))
  ended : Bool

def State.next (s : State) : Turn → State
  | .dropped => s
  | .shm encode => { s with ended := encode ≠ 0 }
  | .dma answers =>
      let call := dmaEncodeVideoFrame s.calls.length answers
      ⟨s.calls ++ [call.acts], call.ret ≠ 0⟩
  | .neither => s

def encodeMain : Labelled State Turn where
  init s := s = ⟨[], false⟩
  step s turn t := s.ended = false ∧ t = s.next turn

/-- What is held after all calls; `none` if something was released twice, or used without being
held. -/
def State.live (s : State) : Option (List Resource) := settle s.calls.flatten []

/-- All that was made for a frame is destroyed once when the call for it returns, so that nothing
is held between the turns. -/
structure State.Balanced (s : State) : Prop where
  each : ∀ acts ∈ s.calls, Settles [] acts
  live : s.live = some []

/-- No memory is left for the pixels. -/
def Turn.Unallocated : Turn → Prop
  | .dma answers => answers.malloc = false
  | .dropped | .shm _ | .neither => True

/-! ### One frame -/

theorem not_settles_of_count {acts : List (Act Resource)} {r : Resource}
    (hacquire : acts.count (.acquire r) = 1) (hrelease : acts.count (.release r) = 0) :
    ¬ Settles [] acts := by
  intro hsettles
  have hcount := count_of_settle hsettles r
  rw [hacquire, hrelease] at hcount
  simp at hcount

section Frame

variable (frame : Nat) (answers : Answers)

/-- The buffer for the pixels is that of the caller. -/
theorem capture_pixelData :
    (eglCaptureDmabufFrame frame answers).acts.count (.acquire ⟨.pixelData, frame⟩) = 0 ∧
      (eglCaptureDmabufFrame frame answers).acts.count (.release ⟨.pixelData, frame⟩) = 0 := by
  unfold eglCaptureDmabufFrame
  split
  · exact ⟨rfl, rfl⟩
  · dsimp only
    split
    · simp [bindTexture, cleanup]
    · split
      · simp [bindTexture, cleanup]
      · split <;> simp [bindTexture, cleanup]

/-- After a capture that succeeds the image and the texture are still there. -/
theorem capture_kept (h : ¬ (eglCaptureDmabufFrame frame answers).ret < 0) :
    (eglCaptureDmabufFrame frame answers).acts =
      .acquire ⟨.eglImage, frame⟩ :: bindTexture frame ++ [.use ⟨.texture, frame⟩] ++
        [.use ⟨.pixelData, frame⟩] := by
  have hneg : (-1 : Int) < 0 := by decide
  unfold eglCaptureDmabufFrame at h ⊢
  split at h
  · exact absurd hneg h
  · next himage =>
    rw [if_neg himage]
    dsimp only at h ⊢
    split at h
    · exact absurd hneg h
    · next hbind =>
      split at h
      · exact absurd hneg h
      · next hcomplete =>
        split at h
        · exact absurd hneg h
        · next hread =>
          rw [if_neg hbind, if_neg hcomplete, if_neg hread]

/-- A frame leaves nothing behind only where nothing was made for it. -/
theorem settles_iff :
    Settles [] (dmaEncodeVideoFrame frame answers).acts ↔ answers.malloc = false := by
  unfold dmaEncodeVideoFrame
  cases answers.malloc with
  | false => exact iff_of_true rfl rfl
  | true =>
      refine iff_of_false ?_ nofun
      rw [if_neg (by decide)]
      dsimp only
      split
      · -- the buffer is not freed after an error
        obtain ⟨hacquire, hrelease⟩ := capture_pixelData frame answers
        exact not_settles_of_count (r := ⟨.pixelData, frame⟩) (by simp [hacquire]) (by simp [hrelease])
      · next hcapture =>
        -- the image and the texture are not destroyed without one
        rw [capture_kept frame answers hcapture]
        exact not_settles_of_count (r := ⟨.eglImage, frame⟩) (by simp [bindTexture])
          (by simp [bindTexture])

end Frame

/-! ### Runs -/

theorem live_of_each {calls : List (List (Act Resource))} (h : ∀ acts ∈ calls, Settles [] acts) :
    settle calls.flatten [] = some [] := by
  induction calls with
  | nil => rfl
  | cons acts calls ih =>
      obtain ⟨hacts, hcalls⟩ := List.forall_mem_cons.mp h
      rw [List.flatten_cons, settle_append, show settle acts [] = some [] from hacts, Option.bind_some]
      exact ih hcalls

theorem balanced_iff (s : State) : s.Balanced ↔ ∀ acts ∈ s.calls, Settles [] acts :=
  ⟨State.Balanced.each, fun h => ⟨h, live_of_each h⟩⟩

theorem balanced_next_iff (s : State) (turn : Turn) :
    (s.next turn).Balanced ↔ s.Balanced ∧ turn.Unallocated := by
  rw [balanced_iff, balanced_iff]
  cases turn with
  | dma answers =>
      change (∀ acts ∈ s.calls ++ [_], _) ↔ _
      rw [List.forall_mem_append, List.forall_mem_singleton, settles_iff]
      rfl
  | dropped => exact (and_iff_left trivial).symm
  | shm encode => exact (and_iff_left trivial).symm
  | neither => exact (and_iff_left trivial).symm

/-- Frames in dma buffers leave nothing behind in the runs in which there is no memory for any of
them. -/
theorem encodeMain_balanced_iff {trace : List Turn} {s : State} (hs : encodeMain.Run trace s) :
    s.Balanced ↔ ∀ turn ∈ trace, turn.Unallocated := by
  refine hs.invariant (fun trace s => s.Balanced ↔ ∀ turn ∈ trace, turn.Unallocated) ?_ ?_
  · rintro _ rfl
    exact iff_of_true ⟨nofun, rfl⟩ nofun
  · rintro trace s turn t ih ⟨-, rfl⟩
    rw [balanced_next_iff, ih, List.forall_mem_append, List.forall_mem_singleton]

theorem run_one (turn : Turn) : encodeMain.Run [turn] (State.next ⟨[], false⟩ turn) :=
  have hstart : encodeMain.Run [] ⟨[], false⟩ := .start rfl
  hstart.next ⟨rfl, rfl⟩

def outOfMemory : Turn := .dma ⟨false, true, false, true, false, 0⟩

theorem outOfMemory_balanced : (State.next ⟨[], false⟩ outOfMemory).Balanced :=
  (encodeMain_balanced_iff (run_one outOfMemory)).mpr (List.forall_mem_singleton.mpr rfl)

/-- A frame for which every call succeeds. -/
def captured : Turn := .dma ⟨true, true, false, true, false, 0⟩

theorem captured_not_balanced : ∃ s, encodeMain.Run [captured] s ∧ ¬ s.Balanced :=
  ⟨_, run_one captured, fun h => absurd h.live (by decide)⟩

end DmaResources

end Stratus.Encode
