import Stratus.Frontend.DecoderCalls

/-! Which frames the video worker decodes when it drops some of them for congestion. -/
namespace Stratus.Frontend

open Stratus.Lib Stratus.Transport VideoDecoding

variable {R : RingBuffer Bytes}

/-- The frame was given to the decoder. -/
def Passed (calls : List DecoderCall) (i : Nat) : Prop :=
  ∃ state chunk, DecoderCall.decode state i chunk ∈ calls

/-- An empty packet is no frame. -/
def FrameAt (frames : List VideoFrame) (i : Nat) : Prop :=
  ∃ frame, frames[i]? = some frame ∧ frame.data ≠ []

def KeyAt (frames : List VideoFrame) (i : Nat) : Prop :=
  ∃ frame, frames[i]? = some frame ∧ frame.data ≠ [] ∧ frame.isDescription = true

def DeltaAt (frames : List VideoFrame) (i : Nat) : Prop :=
  ∃ frame, frames[i]? = some frame ∧ frame.data ≠ [] ∧ frame.isDescription = false

/-- The last key frame before `n` was decoded and so was every frame since, without a reset in
between. -/
def Decodable (frames : List VideoFrame) (calls : List DecoderCall) (n : Nat) : Prop :=
  ∃ k < n, KeyAt frames k ∧ (∀ m, k < m → m < n → ¬ KeyAt frames m) ∧
    ∃ before after state chunk, calls = before ++ .decode state k chunk :: after ∧
      (∀ state, .reset state ∉ after) ∧ ∀ m, k < m → m < n → FrameAt frames m → Passed after m

/-- The decoder was reset and configured just now. -/
def JustReset (calls : List DecoderCall) : Prop :=
  ∃ before state, calls = before ++ [.reset state, .configure .unconfigured]

/-- Frames were dropped since the last one that was decoded. -/
def DroppedSince (dropped : List Nat) (calls : List DecoderCall) (n : Nat) : Prop :=
  ∃ i ∈ dropped, i < n ∧ ∀ m, i < m → ¬ Passed calls m

/-- The stream can be decoded although frames were dropped. -/
structure KeepsDecodable (frames : List VideoFrame) (v : VideoDecoding R) : Prop where
  delta : ∀ before after state d chunk, v.calls = before ++ .decode state d chunk :: after →
    DeltaAt frames d → Decodable frames before d
  recovers : ∀ before after state j chunk, v.calls = before ++ .decode state j chunk :: after →
    DroppedSince v.dropped before j → KeyAt frames j ∧ JustReset before
  dropped : ∀ i ∈ v.dropped, i < v.handled ∧ DeltaAt frames i ∧ ¬ Passed v.calls i
  handled : ∀ i < v.handled, FrameAt frames i → i ∈ v.dropped ∨ Passed v.calls i
  chunk : ∀ state i chunk, .decode state i chunk ∈ v.calls → ∃ frame, frames[i]? = some frame ∧
    chunk.data = frame.data ∧ (chunk.type = .key ↔ frame.isDescription = true)

variable {frames : List VideoFrame} {calls : List DecoderCall} {n : Nat}

section FrameAt

variable {i : Nat} {frame : VideoFrame}

theorem frameAt_iff (hframe : frames[i]? = some frame) : FrameAt frames i ↔ frame.data ≠ [] := by
  simp [FrameAt, hframe]

theorem keyAt_iff (hframe : frames[i]? = some frame) :
    KeyAt frames i ↔ frame.data ≠ [] ∧ frame.isDescription = true := by
  simp [KeyAt, hframe]

theorem deltaAt_iff (hframe : frames[i]? = some frame) :
    DeltaAt frames i ↔ frame.data ≠ [] ∧ frame.isDescription = false := by
  simp [DeltaAt, hframe]

theorem KeyAt.frameAt (h : KeyAt frames i) : FrameAt frames i := by
  obtain ⟨frame, hframe, hdata, -⟩ := h
  exact ⟨frame, hframe, hdata⟩

theorem DeltaAt.frameAt (h : DeltaAt frames i) : FrameAt frames i := by
  obtain ⟨frame, hframe, hdata, -⟩ := h
  exact ⟨frame, hframe, hdata⟩

end FrameAt

/-! ### Calls that are added -/

theorem Passed.mono {more : List DecoderCall} {i : Nat} (h : Passed calls i) :
    Passed (calls ++ more) i := by
  obtain ⟨state, chunk, hmem⟩ := h
  exact ⟨state, chunk, List.mem_append_left _ hmem⟩

/-- A call in the middle is an old one, or one of those that were added. -/
theorem append_eq_middle {α : Type} {old new before after : List α} {x : α}
    (h : old ++ new = before ++ x :: after) :
    (∃ rest, old = before ++ x :: rest) ∨ ∃ front, before = old ++ front ∧ new = front ++ x :: after := by
  obtain ⟨front, hold, hnew⟩ | ⟨front, hold, hnew⟩ := List.append_eq_append_iff.mp h
  · exact .inr ⟨front, hold, hnew⟩
  · cases front with
    | nil =>
        rw [List.append_nil] at hold
        exact .inr ⟨[], by rw [hold, List.append_nil], hnew.symm⟩
    | cons y front =>
        rw [List.cons_append] at hnew
        obtain ⟨rfl, -⟩ := List.cons_eq_cons.mp hnew
        exact .inl ⟨front, hold⟩

theorem Passed.append {new : List DecoderCall} {i : Nat} (h : Passed (calls ++ new) i) :
    Passed calls i ∨ Passed new i := by
  obtain ⟨state, chunk, hmem⟩ := h
  rcases List.mem_append.mp hmem with hmem | hmem
  · exact .inl ⟨state, chunk, hmem⟩
  · exact .inr ⟨state, chunk, hmem⟩

theorem passed_singleton {state : DecoderState} {chunk : EncodedChunk} {i : Nat}
    (h : Passed [.decode state n chunk] i) : i = n := by
  obtain ⟨_, _, hmem⟩ := h
  cases List.mem_singleton.mp hmem
  rfl

/-- A key frame is decoded. -/
theorem Decodable.key {state : DecoderState} {chunk : EncodedChunk} (hkey : KeyAt frames n) :
    Decodable frames (calls ++ [.decode state n chunk]) (n + 1) :=
  ⟨n, Nat.lt_succ_self n, hkey, fun m hgt hlt => by omega, calls, [], state, chunk, rfl, nofun,
    fun m hgt hlt => by omega⟩

/-- So is a frame that depends on those before it. -/
theorem Decodable.delta {state : DecoderState} {chunk : EncodedChunk} (h : Decodable frames calls n)
    (hdelta : ¬ KeyAt frames n) :
    Decodable frames (calls ++ [.decode state n chunk]) (n + 1) := by
  obtain ⟨k, hlt, hkey, hlast, before, after, state', chunk', rfl, hreset, hpassed⟩ := h
  refine ⟨k, by omega, hkey, ?_, before, after ++ [.decode state n chunk], state', chunk', ?_, ?_, ?_⟩
  · intro m hgt hm
    rcases Nat.lt_succ_iff_lt_or_eq.mp hm with hm | rfl
    · exact hlast m hgt hm
    · exact hdelta
  · rw [List.append_assoc, List.cons_append]
  · intro state hmem
    rcases List.mem_append.mp hmem with hmem | hmem
    · exact hreset state hmem
    · cases List.mem_singleton.mp hmem
  · intro m hgt hm hframe
    rcases Nat.lt_succ_iff_lt_or_eq.mp hm with hm | rfl
    · exact (hpassed m hgt hm hframe).mono
    · exact ⟨state, chunk, List.mem_append_right _ (.head _)⟩

/-- Nothing is done for an empty packet. -/
theorem Decodable.skip (h : Decodable frames calls n) (hempty : ¬ FrameAt frames n) :
    Decodable frames calls (n + 1) := by
  obtain ⟨k, hlt, hkey, hlast, before, after, state, chunk, hcalls, hreset, hpassed⟩ := h
  refine ⟨k, by omega, hkey, ?_, before, after, state, chunk, hcalls, hreset, ?_⟩
  · intro m hgt hm
    rcases Nat.lt_succ_iff_lt_or_eq.mp hm with hm | rfl
    · exact hlast m hgt hm
    · exact fun hkey' => hempty hkey'.frameAt
  · intro m hgt hm hframe
    rcases Nat.lt_succ_iff_lt_or_eq.mp hm with hm | rfl
    · exact hpassed m hgt hm hframe
    · exact absurd hframe hempty

/-- Nothing was dropped since the last frame that was decoded. -/
theorem Decodable.not_droppedSince {dropped : List Nat} (h : Decodable frames calls n)
    (hdropped : ∀ i ∈ dropped, FrameAt frames i ∧ ¬ Passed calls i) : ¬ DroppedSince dropped calls n := by
  obtain ⟨k, hlt, -, -, before, after, state, chunk, rfl, -, hpassed⟩ := h
  rintro ⟨i, hmem, hi, hlater⟩
  obtain ⟨hframe, hnot⟩ := hdropped i hmem
  have hk : Passed (before ++ .decode state k chunk :: after) k :=
    ⟨state, chunk, List.mem_append_right _ (.head _)⟩
  rcases Nat.lt_trichotomy i k with hik | rfl | hik
  · exact hlater k hik hk
  · exact hnot hk
  · obtain ⟨state', chunk', hmem'⟩ := hpassed i hik hi hframe
    exact hnot ⟨state', chunk', List.mem_append_right _ (.tail _ hmem')⟩

/-! ### One event -/

/-- What the worker keeps track of. -/
structure Tracks (frames : List VideoFrame) (v : VideoDecoding R) : Prop
    extends KeepsDecodable frames v where
  below : ∀ i, Passed v.calls i → i < v.handled
  current : v.worker.droppingUntilKeyframe = false →
    (∀ i < v.handled, ¬ FrameAt frames i) ∨ Decodable frames v.calls v.handled
  notClosed : v.state ≠ .closed

variable {v v' : VideoDecoding R}

theorem Tracks.decode (h : Tracks frames v) (front : List DecoderCall) {state : DecoderState}
    {chunk : EncodedChunk} (hcalls : v'.calls = v.calls ++ (front ++ [.decode state v.handled chunk]))
    (hfront : ∀ i, ¬ Passed front i) (hhandled : v'.handled = v.handled + 1)
    (hdropped : v'.dropped = v.dropped) (hstate : v'.state ≠ .closed)
    (hchunk : ∃ frame, frames[v.handled]? = some frame ∧ chunk.data = frame.data ∧
      (chunk.type = .key ↔ frame.isDescription = true))
    (hdelta : DeltaAt frames v.handled → Decodable frames (v.calls ++ front) v.handled)
    (hsince : DroppedSince v.dropped (v.calls ++ front) v.handled →
      KeyAt frames v.handled ∧ JustReset (v.calls ++ front))
    (hcurrent : Decodable frames v'.calls v'.handled) : Tracks frames v' := by
  -- a call of `decode` is an old one, or the new one
  have hmiddle {before after : List DecoderCall} {state' : DecoderState} {j : Nat}
      {chunk' : EncodedChunk} (heq : v'.calls = before ++ .decode state' j chunk' :: after) :
      (∃ rest, v.calls = before ++ .decode state' j chunk' :: rest) ∨
        (before = v.calls ++ front ∧ j = v.handled) := by
    rw [hcalls] at heq
    rcases append_eq_middle heq with hold | ⟨front', rfl, hnew⟩
    · exact .inl hold
    · rcases append_eq_middle hnew with ⟨rest, hfront'⟩ | ⟨front'', rfl, hlast⟩
      · exact absurd ⟨state', chunk', by rw [hfront']; simp⟩ (hfront j)
      · cases front'' with
        | nil =>
            cases hlast
            exact .inr ⟨by rw [List.append_nil], rfl⟩
        | cons _ front'' => simp at hlast
  have hpassed {i : Nat} (hi : Passed v'.calls i) : Passed v.calls i ∨ i = v.handled := by
    rw [hcalls] at hi
    rcases hi.append with hi | hi
    · exact .inl hi
    · rcases hi.append with hi | hi
      · exact absurd hi (hfront i)
      · exact .inr (passed_singleton hi)
  refine
    { delta := ?_, recovers := ?_, dropped := ?_, handled := ?_, chunk := ?_, below := ?_
      current := fun _ => .inr hcurrent, notClosed := hstate }
  · intro before after state' d chunk' heq hd
    rcases hmiddle heq with ⟨rest, hold⟩ | ⟨rfl, rfl⟩
    · exact h.delta _ _ _ _ _ hold hd
    · exact hdelta hd
  · intro before after state' j chunk' heq hj
    rw [hdropped] at hj
    rcases hmiddle heq with ⟨rest, hold⟩ | ⟨rfl, rfl⟩
    · exact h.recovers _ _ _ _ _ hold hj
    · exact hsince hj
  · intro i hmem
    rw [hdropped] at hmem
    obtain ⟨hlt, hdelta', hnot⟩ := h.dropped i hmem
    refine ⟨by omega, hdelta', fun hi => ?_⟩
    rcases hpassed hi with hi | rfl
    · exact hnot hi
    · omega
  · intro i hi hframe
    rw [hhandled] at hi
    rw [hdropped, hcalls]
    rcases Nat.lt_succ_iff_lt_or_eq.mp hi with hi | rfl
    · exact (h.handled i hi hframe).imp_right Passed.mono
    · exact .inr ⟨state, chunk, by simp⟩
  · intro state' i chunk' hmem
    rw [hcalls, List.mem_append, List.mem_append, List.mem_singleton] at hmem
    rcases hmem with hmem | hmem | hmem
    · exact h.chunk state' i chunk' hmem
    · exact absurd ⟨state', chunk', hmem⟩ (hfront i)
    · cases hmem
      exact hchunk
  · intro i hi
    rcases hpassed hi with hi | rfl
    · have := h.below i hi
      omega
    · omega

/-- Nothing is decoded. -/
theorem Tracks.keep (h : Tracks frames v) (hcalls : v'.calls = v.calls) (hdropped : v'.dropped = v.dropped)
    (hstate : v'.state ≠ .closed) (hhandled : v.handled ≤ v'.handled)
    (hempty : ∀ i, v.handled ≤ i → i < v'.handled → ¬ FrameAt frames i)
    (hcurrent : v'.worker.droppingUntilKeyframe = false →
      (∀ i < v'.handled, ¬ FrameAt frames i) ∨ Decodable frames v'.calls v'.handled) :
    Tracks frames v' := by
  refine
    { delta := hcalls ▸ h.delta, recovers := ?_, dropped := ?_, handled := ?_, chunk := hcalls ▸ h.chunk
      below := ?_, current := hcurrent, notClosed := hstate }
  · rw [hcalls, hdropped]
    exact h.recovers
  · intro i hmem
    rw [hdropped] at hmem
    obtain ⟨hlt, hrest⟩ := h.dropped i hmem
    exact ⟨by omega, hcalls ▸ hrest⟩
  · intro i hi hframe
    rw [hcalls, hdropped]
    rcases Nat.lt_or_ge i v.handled with hlt | hge
    · exact h.handled i hlt hframe
    · exact absurd hframe (hempty i hge hi)
  · intro i hi
    have := h.below i (hcalls ▸ hi)
    omega

/-- A frame is dropped. -/
theorem Tracks.drop (h : Tracks frames v) (hdelta : DeltaAt frames v.handled)
    (hcalls : v'.calls = v.calls) (hdropped : v'.dropped = v.dropped ++ [v.handled])
    (hstate : v'.state ≠ .closed) (hhandled : v'.handled = v.handled + 1)
    (hdropping : v'.worker.droppingUntilKeyframe = true) : Tracks frames v' := by
  refine
    { delta := hcalls ▸ h.delta, recovers := ?_, dropped := ?_, handled := ?_, chunk := hcalls ▸ h.chunk
      below := ?_, current := ?_, notClosed := hstate }
  · rintro before after state j chunk heq ⟨i, hmem, hlt, hlater⟩
    rw [hcalls] at heq
    have hj : j < v.handled := h.below j ⟨state, chunk, by rw [heq]; simp⟩
    rw [hdropped, List.mem_append, List.mem_singleton] at hmem
    rcases hmem with hmem | rfl
    · exact h.recovers before after state j chunk heq ⟨i, hmem, hlt, hlater⟩
    · omega
  · intro i hmem
    rw [hcalls]
    rw [hdropped, List.mem_append, List.mem_singleton] at hmem
    rcases hmem with hmem | rfl
    · obtain ⟨hlt, hrest⟩ := h.dropped i hmem
      exact ⟨by omega, hrest⟩
    · refine ⟨by omega, hdelta, fun hpassed => ?_⟩
      exact Nat.lt_irrefl _ (h.below _ hpassed)
  · intro i hi hframe
    rw [hcalls, hdropped, List.mem_append, List.mem_singleton]
    rw [hhandled] at hi
    rcases Nat.lt_succ_iff_lt_or_eq.mp hi with hi | rfl
    · exact (h.handled i hi hframe).imp_left .inl
    · exact .inl (.inr rfl)
  · intro i hi
    have := h.below i (hcalls ▸ hi)
    omega
  · rw [hdropping]
    exact nofun

/-- The first frame of the stream is a key frame. -/
def StartsWithKey (frames : List VideoFrame) : Prop :=
  ∀ i, FrameAt frames i → (∀ j < i, ¬ FrameAt frames j) → KeyAt frames i

theorem Tracks.round {browser : VideoBrowser} {frame : VideoFrame} (hfirst : StartsWithKey frames)
    (h : Tracks frames v) (hframe : frames[v.handled]? = some frame)
    (hround : Round browser frame (v.dropsNext browser) v v') (hhandled : v'.handled = v.handled + 1) :
    Tracks frames v' := by
  have hnext (hnot : v.dropsNext browser = false) : v.worker.droppingUntilKeyframe = false := by
    by_contra hdropping
    rw [dropsNext_of_dropping (Bool.not_eq_false _ ▸ hdropping)] at hnot
    cases hnot
  have hdelta := deltaAt_iff hframe
  have hkey := keyAt_iff hframe
  cases hround with
  | empty hdata hcalls hdropped hstate _ hdropping =>
      have hempty : ¬ FrameAt frames v.handled := fun hframeAt => (frameAt_iff hframe).mp hframeAt hdata
      refine h.keep hcalls hdropped (hstate ▸ h.notClosed) (by omega) ?_ ?_
      · intro i hge hlt
        obtain rfl : i = v.handled := by omega
        exact hempty
      · intro hnot
        rw [hcalls, hhandled]
        rcases h.current (hnext (hdropping.symm.trans hnot)) with hnone | hdecodable
        · refine .inl fun i hi => ?_
          rcases Nat.lt_succ_iff_lt_or_eq.mp hi with hi | rfl
          · exact hnone i hi
          · exact hempty
        · exact .inr (hdecodable.skip hempty)
  | drop hdata hdrop hdelta' hcalls hdropped hstate _ hdropping =>
      exact h.drop (hdelta.mpr ⟨hdata, hdelta'⟩) hcalls hdropped (hstate ▸ h.notClosed) hhandled hdropping
  | resetThrows hdata hdrop hkey' hclosed hstate hthrown hcalls => exact absurd hclosed h.notClosed
  | recovered chunk hdata hdrop hkey' hclosed htype hchunk hcalls hdropped hstate hthrown hdropping =>
      have hkeyAt := hkey.mpr ⟨hdata, hkey'⟩
      refine h.decode [.reset v.state, .configure .unconfigured] hcalls ?_ hhandled hdropped
        (by rw [hstate]; exact nofun) ⟨frame, hframe, hchunk, by simp [htype, hkey']⟩ ?_ ?_ ?_
      · rintro i ⟨state, chunk', hmem⟩
        simp at hmem
      · intro hdelta'
        rw [(hdelta.mp hdelta').2] at hkey'
        cases hkey'
      · exact fun _ => ⟨hkeyAt, v.calls, v.state, rfl⟩
      · have hlast : v'.calls = (v.calls ++ [.reset v.state, .configure .unconfigured]) ++
            [.decode .configured v.handled chunk] := by
          rw [hcalls, List.append_assoc]
          rfl
        rw [hlast, hhandled]
        exact .key hkeyAt
  | decoded chunk hdata hdrop htype hchunk hcalls hdropped hstate hthrown hdropping =>
      have hcurrent := h.current (hnext hdrop)
      have hframeAt : FrameAt frames v.handled := (frameAt_iff hframe).mpr hdata
      have hnotSince : ¬ DroppedSince v.dropped v.calls v.handled := by
        rcases hcurrent with hnone | hdecodable
        · rintro ⟨i, hmem, hlt, -⟩
          exact hnone i hlt (h.dropped i hmem).2.1.frameAt
        · refine hdecodable.not_droppedSince fun i hmem => ?_
          obtain ⟨-, hdelta', hnot⟩ := h.dropped i hmem
          exact ⟨hdelta'.frameAt, hnot⟩
      have hbefore (hnot : ¬ KeyAt frames v.handled) : Decodable frames v.calls v.handled := by
        rcases hcurrent with hnone | hdecodable
        · exact absurd (hfirst v.handled hframeAt hnone) hnot
        · exact hdecodable
      refine h.decode [] hcalls ?_ hhandled hdropped (hstate ▸ h.notClosed) ⟨frame, hframe, hchunk, ?_⟩
        ?_ ?_ ?_
      · rintro i ⟨state, chunk', hmem⟩
        cases hmem
      · rw [htype]
        cases frame.isDescription <;> simp
      · intro hdelta'
        rw [List.append_nil]
        refine hbefore fun hkey' => ?_
        have hfalse := (hdelta.mp hdelta').2
        rw [(hkey.mp hkey').2] at hfalse
        cases hfalse
      · rw [List.append_nil]
        exact fun hsince => absurd hsince hnotSince
      · rw [hcalls, hhandled]
        by_cases hkeyAt : KeyAt frames v.handled
        · exact .key hkeyAt
        · exact (hbefore hkeyAt).delta hkeyAt

/-! ### Every run -/

theorem tracks_start (frames : List VideoFrame) : Tracks frames (VideoDecoding.start R) where
  delta := by simp [VideoDecoding.start]
  recovers := by simp [VideoDecoding.start]
  dropped := by simp [VideoDecoding.start]
  handled := by simp [VideoDecoding.start]
  chunk := by simp [VideoDecoding.start]
  below := by simp [VideoDecoding.start, Passed]
  current := by simp [VideoDecoding.start]
  notClosed := by simp [VideoDecoding.start]

theorem Tracks.does {fifo : R.Fifo} {browser : VideoBrowser} {s t : VideoRun R} {event : MediaEvent}
    (hfirst : StartsWithKey frames) (h : Tracks frames s.decoding)
    (hdoes : VideoRun.Does fifo browser frames s t event) (hevent : event ≠ .error) :
    Tracks frames t.decoding := by
  cases hdoes with
  | first chunks hbusy hfresh hcalls hstate hhandled hdropped hdropping =>
      -- nothing has been decoded yet
      have hnone (i : Nat) : ¬ Passed t.decoding.calls i := by
        rw [hcalls]
        rintro ⟨state, chunk, hmem⟩
        rw [List.mem_append, List.mem_singleton] at hmem
        rcases hmem with hmem | hmem
        · exact absurd (h.below i ⟨state, chunk, hmem⟩) (by omega)
        · cases hmem
      have hmiddle {before after : List DecoderCall} {state : DecoderState} {i : Nat}
          {chunk : EncodedChunk} (heq : t.decoding.calls = before ++ .decode state i chunk :: after) :
          False := hnone i ⟨state, chunk, by rw [heq]; simp⟩
      rw [hfresh] at hhandled
      refine
        { delta := fun _ _ _ _ _ heq => (hmiddle heq).elim
          recovers := fun _ _ _ _ _ heq => (hmiddle heq).elim
          dropped := ?_
          handled := fun i hi => by omega
          chunk := fun state i chunk hmem => absurd ⟨state, chunk, hmem⟩ (hnone i)
          below := fun i hi => absurd hi (hnone i)
          current := fun _ => .inl fun i hi => by omega
          notClosed := by rw [hstate]; exact nofun }
      intro i hmem
      rw [hdropped] at hmem
      have := (h.dropped i hmem).1
      omega
  | batch chunks hbusy hdecoder hcalls hstate hhandled hdropped hdropping =>
      refine h.keep hcalls hdropped (hstate ▸ h.notClosed) hhandled.ge (fun i hge hlt => by omega) ?_
      rw [hdropping, hhandled, hcalls]
      exact h.current
  | done hbusy heq =>
      subst heq
      exact h
  | round frame hbusy hframe hwhole hround hhandled hlater => exact h.round hfirst hframe hround hhandled
  | error hdecoder hstate heq => exact absurd rfl hevent

/-- In every run without a decoding error, however the stream is cut into batches and whatever
the size of the decoder's queue. -/
theorem keeps_decodable (fifo : R.Fifo) (browser : VideoBrowser) (frames : List VideoFrame)
    (hfirst : StartsWithKey frames) {trace : List MediaEvent} {s : VideoRun R}
    (hs : (VideoRun.system R browser frames fun _ event => event ≠ .error).Run trace s) :
    KeepsDecodable frames s.decoding ∧
      (s.busy = false → s.decoding.thrown = false → VideoRun.Waits fifo frames s.decoding) := by
  have h : VideoRun.Inv fifo frames s ∧ Tracks frames s.decoding := by
    refine hs.always (fun s => VideoRun.Inv fifo frames s ∧ Tracks frames s.decoding) ?_ ?_
    · rintro s rfl
      exact ⟨.start fifo frames, tracks_start frames⟩
    · rintro s event t ⟨hinv, htracks⟩ ⟨hevent, hnext⟩
      obtain ⟨hinv', hdoes⟩ := VideoRun.next_spec hinv hnext
      exact ⟨hinv', htracks.does hfirst hdoes hevent⟩
  exact ⟨h.2.toKeepsDecodable, h.1.waits⟩

/-- A key frame, two frames that need it, and another key frame. -/
def fourFrames : List VideoFrame :=
  [⟨[1], true, by decide⟩, ⟨[2], false, by decide⟩, ⟨[3], false, by decide⟩, ⟨[4], true, by decide⟩]

/-- The decoder falls behind at the third frame. -/
def fallsBehind : VideoBrowser where
  decodeQueueSize := fun n => if n = 2 then 3 else 0
  throws := fun _ => false

def allAtOnce : List MediaEvent :=
  [.batch (fourFrames.map submitVideoDataToStream), .round, .round, .round, .round, .round]

theorem keeps_decodable_fourFrames :
    StartsWithKey fourFrames ∧ ∃ s : VideoRun (QueueRing.ringBuffer Bytes),
      (VideoRun.system _ fallsBehind fourFrames fun _ event => event ≠ .error).Run allAtOnce s ∧
      s.decoding.dropped = [2] ∧ decodedPackets s.decoding.calls = [0, 1, 3] ∧
      KeepsDecodable fourFrames s.decoding := by
  have hfirst : StartsWithKey fourFrames := by
    intro i hframe hbefore
    cases i with
    | zero => exact ⟨_, rfl, by decide, rfl⟩
    | succ i => exact absurd ⟨_, rfl, by decide⟩ (hbefore 0 (by omega))
  have hend : ∃ s : VideoRun (QueueRing.ringBuffer Bytes),
      (VideoRun.system _ fallsBehind fourFrames fun _ event => event ≠ .error).Run allAtOnce s ∧
      (s.decoding.dropped, decodedPackets s.decoding.calls) = ([2], [0, 1, 3]) :=
    Labelled.exists_run (by decide)
  obtain ⟨s, hrun, hresult⟩ := hend
  obtain ⟨hdropped, hdecoded⟩ := Prod.mk.inj hresult
  exact ⟨hfirst, s, hrun, hdropped, hdecoded,
    (keeps_decodable (QueueRing.fifo Bytes) fallsBehind fourFrames hfirst hrun).1⟩

end Stratus.Frontend
