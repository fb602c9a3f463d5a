import Mathlib.Data.List.Basic

/-! Frames are written one after the other into a stream of bytes, the stream arrives
in pieces, and a reader takes the frames off its buffer as they become complete. -/
namespace Stratus.Lib

/-- A `while` loop whose body may stop it, for at most a number of rounds. -/
def drain {ω : Type} (step : ω → Option ω) : Nat → ω → ω
  | 0, w => w
  | rounds + 1, w =>
      match step w with
      | none => w
      | some w => drain step rounds w

theorem drain_of_none {ω : Type} {step : ω → Option ω} {w : ω} (h : step w = none) (rounds : Nat) :
    drain step rounds w = w := by
  cases rounds with
  | zero => rfl
  | succ rounds => rw [drain, h]

/-- A reader `ω` of frames `φ`.  `emitted` is what it has passed on so far, and `out`
what it has to pass on for a frame; it need not do so once it is not `ok` any more. -/
structure Deframer (ω φ δ : Type) where
  step : ω → Option ω
  bytes : ω → List UInt8
  emitted : ω → List δ
  encode : φ → List UInt8
  out : φ → List δ
  good : ω → Prop
  ok : ω → Prop
  encode_pos : ∀ f, 0 < (encode f).length
  empty : ∀ w, good w → bytes w = [] → step w = none
  short : ∀ w f, good w → bytes w <+: encode f → (bytes w).length < (encode f).length →
    step w = none
  whole : ∀ w f rest, good w → bytes w = encode f ++ rest →
    ∃ w', step w = some w' ∧ good w' ∧ bytes w' = rest ∧
      (ok w' → ok w ∧ emitted w' = emitted w ++ out f)

namespace Deframer

variable {ω φ δ : Type} (D : Deframer ω φ δ)

def stream (frames : List φ) : List UInt8 := (frames.map D.encode).flatten

/-- What is left of a stream when its first frames are done and less than one frame is
in the buffer. -/
structure Rest (frames : List φ) (k : Nat) (buffered later : List UInt8) : Prop where
  bytes : buffered ++ later = D.stream (frames.drop k)
  short : ∀ f ∈ (frames.drop k).head?, buffered.length < (D.encode f).length

variable {D}

/-- When nothing more comes, all frames are done. -/
theorem Rest.complete {frames : List φ} {k : Nat} {buffered : List UInt8}
    (h : D.Rest frames k buffered []) : frames.take k = frames ∧ buffered = [] := by
  have hbytes := h.bytes
  rw [List.append_nil] at hbytes
  cases hdrop : frames.drop k with
  | nil =>
      rw [hdrop] at hbytes
      exact ⟨List.take_of_length_le (List.drop_eq_nil_iff.mp hdrop), hbytes⟩
  | cons f rest =>
      have hlt := h.short f (by rw [hdrop]; rfl)
      rw [hdrop, stream, List.map_cons, List.flatten_cons] at hbytes
      rw [hbytes, List.length_append] at hlt
      omega

/-- The loop takes off all frames that are complete. -/
theorem drain_spec (frames : List φ) (w : ω) (later : List UInt8) (rounds : Nat) (hgood : D.good w)
    (hstream : D.bytes w ++ later = D.stream frames) (hrounds : (D.bytes w).length ≤ rounds) :
    D.good (drain D.step rounds w) ∧ ∃ k, D.Rest frames k (D.bytes (drain D.step rounds w)) later ∧
      (D.ok (drain D.step rounds w) → D.ok w ∧
        D.emitted (drain D.step rounds w) = D.emitted w ++ (frames.take k).flatMap D.out) := by
  induction frames generalizing w rounds with
  | nil =>
      have hnil : D.bytes w = [] := (List.append_eq_nil_iff.mp hstream).1
      rw [drain_of_none (D.empty w hgood hnil)]
      refine ⟨hgood, 0, ⟨hstream, fun f hf => by cases hf⟩, fun hok => ⟨hok, ?_⟩⟩
      rw [List.take_zero, List.flatMap_nil, List.append_nil]
  | cons f frames ih =>
      have hcons : D.bytes w ++ later = D.encode f ++ D.stream frames := hstream
      by_cases hlt : (D.bytes w).length < (D.encode f).length
      · -- the first frame is not complete
        have hprefix : D.bytes w <+: D.encode f :=
          List.prefix_of_prefix_length_le ⟨later, hcons⟩ ⟨_, rfl⟩ (Nat.le_of_lt hlt)
        rw [drain_of_none (D.short w f hgood hprefix hlt)]
        refine ⟨hgood, 0, ⟨hstream, ?_⟩, fun hok => ⟨hok, ?_⟩⟩
        · rintro _ ⟨⟩
          exact hlt
        · rw [List.take_zero, List.flatMap_nil, List.append_nil]
      · obtain ⟨rest, hrest⟩ : D.encode f <+: D.bytes w :=
          List.prefix_of_prefix_length_le ⟨D.stream frames, rfl⟩ ⟨later, hcons⟩ (by omega)
        obtain ⟨w', hstep, hgood', hbytes', hok'⟩ := D.whole w f rest hgood hrest.symm
        have hpos := D.encode_pos f
        have hlength : (D.encode f).length + rest.length = (D.bytes w).length := by
          rw [← hrest, List.length_append]
        obtain ⟨n, rfl⟩ : ∃ n, rounds = n + 1 := ⟨rounds - 1, by omega⟩
        have hnext : D.bytes w' ++ later = D.stream frames := by
          rw [hbytes']
          rw [← hrest, List.append_assoc] at hcons
          exact List.append_cancel_left hcons
        obtain ⟨hgood'', k, hrest', hok''⟩ := ih w' n hgood' hnext (by rw [hbytes']; omega)
        rw [drain, hstep]
        refine ⟨hgood'', k + 1, ⟨hrest'.bytes, hrest'.short⟩, fun hok => ?_⟩
        obtain ⟨hokw', hemitted⟩ := hok'' hok
        obtain ⟨hokw, hemitted'⟩ := hok' hokw'
        refine ⟨hokw, ?_⟩
        rw [hemitted, hemitted', List.take_succ_cons, List.flatMap_cons, List.append_assoc]

/-- Where the reader of a stream is after some pieces of it. -/
structure Reads (D : Deframer ω φ δ) (frames : List φ) (later : List UInt8) (w : ω) : Prop where
  good : D.good w
  progress : ∃ k, D.Rest frames k (D.bytes w) later ∧
    (D.ok w → D.emitted w = (frames.take k).flatMap D.out)

/-- More bytes are put into the buffer and the loop is run. -/
theorem Reads.feed {frames : List φ} {piece later : List UInt8} {w w' : ω} {rounds : Nat}
    (h : D.Reads frames (piece ++ later) w) (hgood : D.good w')
    (hbytes : D.bytes w' = D.bytes w ++ piece) (hemitted : D.emitted w' = D.emitted w)
    (hok : D.ok w' → D.ok w) (hrounds : (D.bytes w').length ≤ rounds) :
    D.Reads frames later (drain D.step rounds w') ∧
      (D.ok (drain D.step rounds w') → D.ok w) := by
  obtain ⟨k, hrest, hread⟩ := h.progress
  have hstream : D.bytes w' ++ later = D.stream (frames.drop k) := by
    rw [hbytes, List.append_assoc]
    exact hrest.bytes
  obtain ⟨hgood', j, hrest', hok'⟩ := drain_spec (frames.drop k) w' later rounds hgood hstream hrounds
  refine ⟨⟨hgood', k + j, ?_, fun hokw => ?_⟩, fun hokw => hok (hok' hokw).1⟩
  · refine ⟨?_, ?_⟩
    · rw [hrest'.bytes, List.drop_drop]
    · intro f hf
      rw [← List.drop_drop] at hf
      exact hrest'.short f hf
  · obtain ⟨hokw', hemitted'⟩ := hok' hokw
    rw [hemitted', hemitted, hread (hok hokw'), List.take_add, List.flatMap_append]

/-- A reader whose buffer is empty, at the beginning of the stream. -/
theorem Reads.start {frames : List φ} {w : ω} (hgood : D.good w) (hbytes : D.bytes w = [])
    (hemitted : D.emitted w = []) : D.Reads frames (D.stream frames) w := by
  refine ⟨hgood, 0, ⟨?_, fun f _ => ?_⟩, fun _ => ?_⟩
  · rw [hbytes]
    rfl
  · rw [hbytes]
    exact D.encode_pos f
  · rw [hemitted]
    rfl

end Deframer

end Stratus.Lib
