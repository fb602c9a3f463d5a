import Stratus.Frontend.AudioCalls

/-! Whether the decoders of the two workers are still used after an error, or after a call of
`decode` that has thrown. -/
namespace Stratus.Frontend

open Stratus.Lib Stratus.Transport

variable {R : RingBuffer Bytes}

/-! ### Frames that have arrived -/

section Arrived

variable {α : Type} (data submit : α → Bytes)

/-- The packet is there as a whole: what is still to come belongs to the packets behind it. -/
def Arrived (frames : List α) (later : Bytes) (i : Nat) : Prop :=
  later.length ≤ ((frames.drop (i + 1)).map submit).flatten.length

/-- Of the packets from number `n` on, none that is not empty is there as a whole. -/
def NoneFrom (frames : List α) (later : Bytes) (n : Nat) : Prop :=
  ∀ i (hi : i < frames.length), n ≤ i → data frames[i] ≠ [] → ¬ Arrived submit frames later i

instance (frames : List α) (later : Bytes) (i : Nat) : Decidable (Arrived submit frames later i) :=
  inferInstanceAs (Decidable (_ ≤ _))

instance (frames : List α) (later : Bytes) (n : Nat) :
    Decidable (NoneFrom data submit frames later n) :=
  inferInstanceAs (Decidable (∀ i (hi : i < frames.length),
    n ≤ i → data frames[i] ≠ [] → ¬ Arrived submit frames later i))

variable {data submit} {frames : List α} {buffered later : Bytes} {n i : Nat}

theorem length_flatten_drop (packets : List Bytes) (n : Nat) :
    (packets.drop n).flatten.length ≤ packets.flatten.length := by
  have h := congrArg (fun l => l.flatten.length) (List.take_append_drop n packets)
  simp only [List.flatten_append, List.length_append] at h
  omega

/-- The first packet that is not handled has arrived when the buffer holds it. -/
theorem Arrived.of_whole {frame : α} (hframe : frames[n]? = some frame)
    (hbytes : buffered ++ later = ((frames.drop n).map submit).flatten)
    (hwhole : (submit frame).length ≤ buffered.length) : Arrived submit frames later n := by
  have hlength := congrArg List.length hbytes
  rw [flatten_drop_of_getElem? hframe, List.length_append, List.length_append] at hlength
  unfold Arrived
  omega

/-- When it is not there, no other one is. -/
theorem NoneFrom.of_waits (hbytes : buffered ++ later = ((frames.drop n).map submit).flatten)
    (hwaits : ∀ frame ∈ frames[n]?, buffered.length < (submit frame).length) :
    NoneFrom data submit frames later n := by
  intro i hi hle _ harrived
  have hlt : n < frames.length := by omega
  have hframe := List.getElem?_eq_getElem hlt
  have hshort := hwaits frames[n] hframe
  have hlength := congrArg List.length hbytes
  rw [flatten_drop_of_getElem? hframe, List.length_append, List.length_append] at hlength
  have hbehind : ((frames.drop (i + 1)).map submit).flatten.length ≤
      ((frames.drop (n + 1)).map submit).flatten.length := by
    have hdrop : (frames.drop (i + 1)).map submit = ((frames.drop (n + 1)).map submit).drop (i - n) := by
      rw [← List.map_drop, List.drop_drop]
      congr 2
      omega
    rw [hdrop]
    exact length_flatten_drop _ _
  unfold Arrived at harrived
  omega

theorem NoneFrom.lt {frame : α} (h : NoneFrom data submit frames later n)
    (hframe : frames[i]? = some frame) (hdata : data frame ≠ [])
    (harrived : Arrived submit frames later i) : i < n := by
  obtain ⟨hlt, rfl⟩ := List.getElem?_eq_some_iff.mp hframe
  by_contra hge
  exact h i hlt (Nat.not_lt.mp hge) hdata harrived

theorem NoneFrom.mono {m : Nat} (h : NoneFrom data submit frames later n) (hle : n ≤ m) :
    NoneFrom data submit frames later m :=
  fun i hi hge => h i hi (hle.trans hge)

end Arrived

/-! ### What is asked of the calls -/

/-- `decode` is only called on a configured decoder. -/
def OnlyConfigured (calls : List DecoderCall) : Prop :=
  ∀ state i chunk, .decode state i chunk ∈ calls → state = .configured

/-- The bytes of packet `i` were given to a configured decoder. -/
def Given (calls : List DecoderCall) (i : Nat) (data : Bytes) : Prop :=
  ∃ chunk, .decode .configured i chunk ∈ calls ∧ chunk.data = data

variable {calls : List DecoderCall}

@[simp] theorem onlyConfigured_nil : OnlyConfigured [] := nofun

@[simp] theorem onlyConfigured_cons {call : DecoderCall} : OnlyConfigured (call :: calls) ↔
    (∀ state i chunk, call = .decode state i chunk → state = .configured) ∧ OnlyConfigured calls := by
  simp only [OnlyConfigured, List.mem_cons, or_imp, forall_and, eq_comm]

theorem OnlyConfigured.append {more : List DecoderCall} (h : OnlyConfigured calls)
    (hmore : OnlyConfigured more) : OnlyConfigured (calls ++ more) := by
  intro state i chunk hmem
  rcases List.mem_append.mp hmem with hmem | hmem
  · exact h state i chunk hmem
  · exact hmore state i chunk hmem

theorem Given.mono {more : List DecoderCall} {i : Nat} {data : Bytes} (h : Given calls i data) :
    Given (calls ++ more) i data := by
  obtain ⟨chunk, hmem, hdata⟩ := h
  exact ⟨chunk, List.mem_append_left _ hmem, hdata⟩

/-- Between two messages every frame that is there as a whole has been given to a configured
decoder, or dropped for congestion. -/
structure VideoRun.Usable (frames : List VideoFrame) (s : VideoRun R) : Prop where
  configured : OnlyConfigured s.decoding.calls
  given : s.busy = false → ∀ i frame, frames[i]? = some frame → frame.data ≠ [] →
    Arrived submitVideoDataToStream frames s.later i →
    i ∈ s.decoding.dropped ∨ Given s.decoding.calls i frame.data

structure AudioRun.Usable (frames : List AudioFrame) (s : AudioRun R) : Prop where
  configured : OnlyConfigured s.decoding.calls
  given : s.busy = false → ∀ i frame, frames[i]? = some frame → frame.data ≠ [] →
    Arrived submitAudioDataToStream frames s.later i → Given s.decoding.calls i frame.data

/-! ### Video -/

namespace VideoRun

/-- A closed decoder is left alone: a packet of the video stream that is handled then is empty, or
dropped.  A call that throws is the last one of its batch. -/
def Spared (browser : VideoBrowser) (frames : List VideoFrame) (s : VideoRun R) : MediaEvent → Prop
  | .round => ∀ frame ∈ frames[s.decoding.handled]?, frame.data ≠ [] →
      Arrived submitVideoDataToStream frames s.later s.decoding.handled →
      ¬ (s.decoding.dropsNext browser = true ∧ frame.isDescription = false) →
      s.decoding.state ≠ .closed ∧
        (browser.throws s.decoding.worker.decoded.length = true →
          NoneFrom VideoFrame.data submitVideoDataToStream frames s.later (s.decoding.handled + 1))
  | _ => True

instance (browser : VideoBrowser) (frames : List VideoFrame) (s : VideoRun R) (event : MediaEvent) :
    Decidable (s.Spared browser frames event) := by
  cases event <;> unfold Spared <;> infer_instance

variable {fifo : R.Fifo} {browser : VideoBrowser} {frames : List VideoFrame} {s t : VideoRun R}

structure Tracked (fifo : R.Fifo) (frames : List VideoFrame) (s : VideoRun R) : Prop
    extends Inv fifo frames s where
  configured : OnlyConfigured s.decoding.calls
  state : s.decoding.worker.decoder = true → s.decoding.state ≠ .unconfigured
  handled : ∀ i < s.decoding.handled, ∀ frame, frames[i]? = some frame → frame.data ≠ [] →
    i ∈ s.decoding.dropped ∨ Given s.decoding.calls i frame.data
  thrown : s.busy = false → s.decoding.thrown = true →
    NoneFrom VideoFrame.data submitVideoDataToStream frames s.later s.decoding.handled

theorem Tracked.usable (h : Tracked fifo frames s) : Usable frames s := by
  refine ⟨h.configured, fun hidle i frame hframe hdata harrived => ?_⟩
  have hnone : NoneFrom VideoFrame.data submitVideoDataToStream frames s.later s.decoding.handled := by
    cases hthrown : s.decoding.thrown with
    | false => exact .of_waits h.fits.bytes (h.waits hidle hthrown)
    | true => exact h.thrown hidle hthrown
  exact h.handled i (hnone.lt hframe hdata harrived) frame hframe hdata

theorem Tracked.extend (h : Tracked fifo frames s) (hinv : Inv fifo frames t) (more : List DecoderCall)
    (hcalls : t.decoding.calls = s.decoding.calls ++ more) (hmore : OnlyConfigured more)
    (hstate : t.decoding.state ≠ .unconfigured)
    (hdropped : ∀ i ∈ s.decoding.dropped, i ∈ t.decoding.dropped)
    (hhandled : ∀ i, s.decoding.handled ≤ i → i < t.decoding.handled → ∀ frame,
      frames[i]? = some frame → frame.data ≠ [] →
        i ∈ t.decoding.dropped ∨ Given t.decoding.calls i frame.data)
    (hthrown : t.busy = false → t.decoding.thrown = true →
      NoneFrom VideoFrame.data submitVideoDataToStream frames t.later t.decoding.handled) :
    Tracked fifo frames t := by
  refine ⟨hinv, ?_, fun _ => hstate, ?_, hthrown⟩
  · rw [hcalls]
    exact h.configured.append hmore
  · intro i hi frame hframe hdata
    rcases Nat.lt_or_ge i s.decoding.handled with hlt | hge
    · rw [hcalls]
      exact (h.handled i hlt frame hframe hdata).imp (hdropped i) Given.mono
    · exact hhandled i hge hi frame hframe hdata

theorem Tracked.round (h : Tracked fifo frames s) (hinv : Inv fifo frames t) {frame : VideoFrame}
    (hspared : s.Spared browser frames .round) (hbusy : s.busy = true)
    (hframe : frames[s.decoding.handled]? = some frame)
    (hwhole : (submitVideoDataToStream frame).length ≤ (s.decoding.worker.buffered fifo).length)
    (hround : VideoDecoding.Round browser frame (s.decoding.dropsNext browser) s.decoding t.decoding)
    (hhandled : t.decoding.handled = s.decoding.handled + 1) (hlater : t.later = s.later) :
    Tracked fifo frames t := by
  obtain ⟨hnot, hdecoder⟩ := h.busy hbusy
  have hstate := h.state hdecoder
  -- the packet is the only one that is handled
  have hlast {P : Nat → VideoFrame → Prop} (hP : frame.data ≠ [] → P s.decoding.handled frame) (i : Nat)
      (hge : s.decoding.handled ≤ i) (hlt : i < t.decoding.handled) (frame' : VideoFrame)
      (hframe' : frames[i]? = some frame') (hdata : frame'.data ≠ []) : P i frame' := by
    obtain rfl : i = s.decoding.handled := by omega
    cases hframe.symm.trans hframe'
    exact hP hdata
  have hmeets (hdata : frame.data ≠ []) := hspared frame hframe hdata
    (.of_whole hframe h.fits.bytes hwhole)
  cases hround with
  | empty hdata hcalls hdropped hstate' hthrown _ =>
      refine h.extend hinv [] (by rw [hcalls, List.append_nil]) nofun (hstate' ▸ hstate)
        (fun i hi => hdropped ▸ hi) (hlast fun hdata' => absurd hdata hdata') ?_
      rw [hthrown, hnot]
      exact nofun
  | drop hdata hdrop hdelta hcalls hdropped hstate' hthrown _ =>
      refine h.extend hinv [] (by rw [hcalls, List.append_nil]) nofun (hstate' ▸ hstate) ?_
        (hlast fun _ => .inl ?_) ?_
      · intro i hi
        rw [hdropped]
        exact List.mem_append_left _ hi
      · rw [hdropped]
        exact List.mem_append_right _ (.head _)
      · rw [hthrown, hnot]
        exact nofun
  | resetThrows hdata hdrop hkey hclosed hstate' hthrown hcalls =>
      refine absurd hclosed (hmeets hdata ?_).1
      rw [hkey]
      exact nofun
  | recovered chunk hdata hdrop hkey hclosed htype hchunk hcalls hdropped hstate' hthrown _ =>
      refine h.extend hinv _ hcalls (by simp) (by rw [hstate']; exact nofun)
        (fun i hi => hdropped ▸ hi) (hlast fun _ => .inr ⟨chunk, ?_, hchunk⟩) ?_
      · rw [hcalls]
        simp
      · intro _ hthrown'
        rw [hhandled, hlater]
        exact (hmeets hdata (by rw [hkey]; exact nofun)).2 (hthrown ▸ hthrown')
  | decoded chunk hdata hdrop htype hchunk hcalls hdropped hstate' hthrown _ =>
      have hkept := hmeets hdata (by rw [hdrop]; exact nofun)
      have hconfigured : s.decoding.state = .configured := by
        cases hs : s.decoding.state with
        | unconfigured => exact absurd hs hstate
        | configured => rfl
        | closed => exact absurd hs hkept.1
      rw [hconfigured] at hcalls hthrown
      refine h.extend hinv _ hcalls (by simp) (hstate' ▸ hstate)
        (fun i hi => hdropped ▸ hi) (hlast fun _ => .inr ⟨chunk, ?_, hchunk⟩) ?_
      · rw [hcalls]
        simp
      · intro _ hthrown'
        rw [hhandled, hlater]
        refine hkept.2 ?_
        simpa [hthrown] using hthrown'

theorem Tracked.next (h : Tracked fifo frames s) {event : MediaEvent}
    (hspared : s.Spared browser frames event) (hnext : s.next browser event = some t) :
    Tracked fifo frames t := by
  obtain ⟨hinv, hdoes⟩ := next_spec h.toInv hnext
  cases hdoes with
  | first chunks hbusy hfresh hcalls hstate hhandled hdropped _ =>
      exact h.extend hinv _ hcalls (by simp) (by rw [hstate]; exact nofun)
        (fun i hi => hdropped ▸ hi) (fun i hge hlt => by omega) (by rw [hbusy]; exact nofun)
  | batch chunks hbusy hdecoder hcalls hstate hhandled hdropped _ =>
      exact h.extend hinv [] (by rw [hcalls, List.append_nil]) nofun (hstate ▸ h.state hdecoder)
        (fun i hi => hdropped ▸ hi) (fun i hge hlt => by omega) (by rw [hbusy]; exact nofun)
  | done hbusy heq =>
      subst heq
      obtain ⟨hnot, hdecoder⟩ := h.busy hbusy
      refine ⟨hinv, h.configured, h.state, h.handled, fun _ hthrown => ?_⟩
      cases hnot.symm.trans hthrown
  | round frame hbusy hframe hwhole hround hhandled hlater =>
      exact h.round hinv hspared hbusy hframe hwhole hround hhandled hlater
  | error hdecoder hstate heq =>
      subst heq
      exact ⟨hinv, h.configured, fun _ => nofun, h.handled, h.thrown⟩

theorem usable (fifo : R.Fifo) {trace : List MediaEvent}
    (hs : (system R browser frames (Spared browser frames)).Run trace s) : Usable frames s := by
  have h : Tracked fifo frames s := by
    refine hs.always (Tracked fifo frames) ?_ ?_
    · rintro s rfl
      refine ⟨.start fifo frames, ?_, ?_, ?_, ?_⟩ <;>
        simp [VideoDecoding.start, OnlyConfigured, VideoStreamWorker.create,
          VideoStreamWorker.handleInit]
    · rintro s event t h ⟨hspared, hnext⟩
      exact h.next hspared hnext
  exact h.usable

end VideoRun

/-! ### Audio -/

namespace AudioRun

/-- A decoder that is not configured any more gets no packets of a frame, and a call that throws is
the last one of the stream. -/
def Spared (throws : Nat → Bool) (frames : List AudioFrame) (s : AudioRun R) : MediaEvent → Prop
  | .batch chunks => s.decoding.worker.decoder = true → s.decoding.state ≠ .configured →
      NoneFrom AudioFrame.data submitAudioDataToStream frames (s.later.drop chunks.flatten.length)
        s.decoding.handled
  | .round => ∀ frame ∈ frames[s.decoding.handled]?, frame.data ≠ [] →
      Arrived submitAudioDataToStream frames s.later s.decoding.handled →
      throws s.decoding.worker.decoded.length = true →
        NoneFrom AudioFrame.data submitAudioDataToStream frames s.later (s.decoding.handled + 1)
  | .error => True

instance (throws : Nat → Bool) (frames : List AudioFrame) (s : AudioRun R) (event : MediaEvent) :
    Decidable (s.Spared throws frames event) := by
  cases event <;> unfold Spared <;> infer_instance

variable {fifo : R.Fifo} {throws : Nat → Bool} {frames : List AudioFrame} {s t : AudioRun R}

structure Tracked (fifo : R.Fifo) (frames : List AudioFrame) (s : AudioRun R) : Prop
    extends Inv fifo frames s where
  configured : OnlyConfigured s.decoding.calls
  handled : ∀ i < s.decoding.handled, ∀ frame, frames[i]? = some frame → frame.data ≠ [] →
    Given s.decoding.calls i frame.data
  thrown : s.decoding.thrown = true → s.decoding.state ≠ .configured
  stopped : s.decoding.worker.decoder = true → s.decoding.state ≠ .configured →
    NoneFrom AudioFrame.data submitAudioDataToStream frames s.later s.decoding.handled

theorem Tracked.idle (h : Tracked fifo frames s) (hidle : s.busy = false) :
    NoneFrom AudioFrame.data submitAudioDataToStream frames s.later s.decoding.handled := by
  by_cases hstopped : s.decoding.worker.decoder = true ∧ s.decoding.state ≠ .configured
  · exact h.stopped hstopped.1 hstopped.2
  · have hopen : s.decoding.thrown = false ∧ s.decoding.state ≠ .closed := by
      cases hdecoder : s.decoding.worker.decoder with
      | false => exact h.fresh hdecoder
      | true =>
          have hstate : s.decoding.state = .configured := by
            by_contra hstate
            exact hstopped ⟨hdecoder, hstate⟩
          refine ⟨?_, by rw [hstate]; exact nofun⟩
          by_contra hthrown
          exact h.thrown (Bool.not_eq_false _ ▸ hthrown) hstate
    exact .of_waits h.fits.bytes (h.waits hidle hopen.1 hopen.2)

theorem Tracked.round (h : Tracked fifo frames s) (hinv : Inv fifo frames t) {frame : AudioFrame}
    (hspared : s.Spared throws frames .round) (hbusy : s.busy = true)
    (hframe : frames[s.decoding.handled]? = some frame)
    (hwhole : (submitAudioDataToStream frame).length ≤ (s.decoding.worker.buffered fifo).length)
    (hround : AudioDecoding.Round throws frame s.decoding t.decoding)
    (hhandled : t.decoding.handled = s.decoding.handled + 1) (hlater : t.later = s.later) :
    Tracked fifo frames t := by
  obtain ⟨hnot, hdecoder⟩ := h.busy hbusy
  have harrived : Arrived submitAudioDataToStream frames s.later s.decoding.handled :=
    .of_whole hframe h.fits.bytes hwhole
  -- a frame that is there finds the decoder configured
  have hconfigured (hdata : frame.data ≠ []) : s.decoding.state = .configured := by
    by_contra hstate
    exact Nat.lt_irrefl _ ((h.stopped hdecoder hstate).lt hframe hdata harrived)
  have hgiven {more : List DecoderCall} (hcalls : t.decoding.calls = s.decoding.calls ++ more)
      (hlast : frame.data ≠ [] → Given t.decoding.calls s.decoding.handled frame.data) (i : Nat)
      (hi : i < t.decoding.handled) (frame' : AudioFrame) (hframe' : frames[i]? = some frame')
      (hdata : frame'.data ≠ []) : Given t.decoding.calls i frame'.data := by
    rw [hhandled] at hi
    rcases Nat.lt_succ_iff_lt_or_eq.mp hi with hi | rfl
    · rw [hcalls]
      exact (h.handled i hi frame' hframe' hdata).mono
    · cases hframe.symm.trans hframe'
      exact hlast hdata
  cases hround with
  | empty hdata hcalls hstate hthrown =>
      refine ⟨hinv, hcalls ▸ h.configured, ?_, ?_, ?_⟩
      · exact hgiven (by rw [hcalls, List.append_nil]) fun hdata' => absurd hdata hdata'
      · rw [hthrown, hstate]
        exact h.thrown
      · rw [hstate, hlater, hhandled]
        exact fun _ hstate' => (h.stopped hdecoder hstate').mono (Nat.le_succ _)
  | decoded chunk hdata _ hthrows hchunk hcalls hstate hthrown =>
      refine ⟨hinv, ?_, hgiven hcalls fun _ => ⟨chunk, ?_, hchunk⟩, ?_, ?_⟩
      · rw [hcalls]
        exact h.configured.append (by simp)
      · rw [hcalls]
        simp
      · rw [hthrown, hnot]
        exact nofun
      · exact fun _ hstate' => absurd hstate hstate'
  | failed chunk hdata hthrows hchunk hcalls hstate hthrown =>
      obtain ⟨resets, hresets, hcalls⟩ := hcalls
      rw [hconfigured hdata] at hcalls
      have hthrows' : throws s.decoding.worker.decoded.length = true := by
        rcases hthrows with hstate' | hthrows
        · exact absurd (hconfigured hdata) hstate'
        · exact hthrows
      refine ⟨hinv, ?_, hgiven hcalls fun _ => ⟨chunk, ?_, hchunk⟩, fun _ => hstate, fun _ _ => ?_⟩
      · rw [hcalls]
        refine h.configured.append (onlyConfigured_cons.mpr ⟨by simp, fun state i chunk' hmem => ?_⟩)
        cases hresets _ hmem
      · rw [hcalls]
        simp
      · rw [hlater, hhandled]
        exact hspared frame hframe hdata harrived hthrows'

theorem Tracked.next (h : Tracked fifo frames s) {event : MediaEvent}
    (hspared : s.Spared throws frames event) (hnext : s.next throws event = some t) :
    Tracked fifo frames t := by
  obtain ⟨hinv, hdoes⟩ := next_spec h.toInv hnext
  cases hdoes with
  | first chunks hbusy hdecoder hcalls hstate hhandled =>
      refine ⟨hinv, ?_, ?_, ?_, fun _ hstate' => absurd hstate hstate'⟩
      · rw [hcalls]
        exact h.configured.append (by simp)
      · rw [hhandled, hcalls]
        exact fun i hi frame hframe hdata => (h.handled i hi frame hframe hdata).mono
      · rw [(hinv.busy hbusy).1]
        exact nofun
  | batch chunks hdecoder hbusy hcalls hstate hhandled hlater =>
      refine ⟨hinv, hcalls ▸ h.configured, ?_, ?_, ?_⟩
      · rw [hhandled, hcalls]
        exact h.handled
      · intro hthrown hconfigured
        rw [hconfigured] at hbusy
        cases (hinv.busy hbusy).1.symm.trans hthrown
      · rw [hstate, hlater, hhandled]
        exact fun _ hstate' => hspared hdecoder hstate'
  | done hbusy heq =>
      subst heq
      exact ⟨hinv, h.configured, h.handled, h.thrown, h.stopped⟩
  | round frame hbusy hframe hwhole hround hhandled hlater =>
      exact h.round hinv hspared hbusy hframe hwhole hround hhandled hlater
  | error hdecoder hstate hcalls hhandled hlater hbusy =>
      refine ⟨hinv, hcalls ▸ h.configured, ?_, fun _ => by rw [hstate]; exact nofun, fun _ _ => ?_⟩
      · rw [hhandled, hcalls]
        exact h.handled
      · rw [hlater, hhandled]
        exact h.idle hbusy

theorem usable (fifo : R.Fifo) {trace : List MediaEvent}
    (hs : (system R throws frames (Spared throws frames)).Run trace s) : Usable frames s := by
  have h : Tracked fifo frames s := by
    refine hs.always (Tracked fifo frames) ?_ ?_
    · rintro s rfl
      refine ⟨.start fifo frames, ?_, ?_, ?_, ?_⟩ <;>
        simp [AudioDecoding.start, OnlyConfigured, AudioStreamWorker.create,
          AudioStreamWorker.handleInit]
    · rintro s event t h ⟨hspared, hnext⟩
      exact h.next hspared hnext
  exact ⟨h.configured, fun hidle i frame hframe hdata harrived =>
    h.handled i ((h.idle hidle).lt hframe hdata harrived) frame hframe hdata⟩

end AudioRun

/-! ### Both workers -/

/-- In every run in which the decoders that an error has closed, or that `resetDecoder` has left
unconfigured, get no frame, and in which no frame waits behind a call that throws. -/
theorem decoders_usable (fifo : R.Fifo) :
    (∀ browser frames trace (s : VideoRun R),
      (VideoRun.system R browser frames (VideoRun.Spared browser frames)).Run trace s →
        s.Usable frames) ∧
    ∀ throws frames trace (s : AudioRun R),
      (AudioRun.system R throws frames (AudioRun.Spared throws frames)).Run trace s →
        s.Usable frames :=
  ⟨fun _ _ _ _ hs => VideoRun.usable fifo hs, fun _ _ _ _ hs => AudioRun.usable fifo hs⟩

theorem OnlyConfigured.decodeStates (h : OnlyConfigured calls) {state : DecoderState}
    (hmem : state ∈ decodeStates calls) : state = .configured := by
  obtain ⟨call, hcall, hstate⟩ := List.mem_filterMap.mp hmem
  cases call with
  | configure _ => cases hstate
  | reset _ => cases hstate
  | decode state' i chunk =>
      cases hstate
      exact h _ i chunk hcall

theorem Given.mem_decodedPackets {i : Nat} {data : Bytes} (h : Given calls i data) :
    i ∈ decodedPackets calls := by
  obtain ⟨chunk, hmem, -⟩ := h
  exact List.mem_filterMap.mpr ⟨_, hmem, rfl⟩

def threeVideoFrames : List VideoFrame :=
  [⟨[5], true, by decide⟩, ⟨[6], false, by decide⟩, ⟨[7], false, by decide⟩]

def twoAudioFrames : List AudioFrame := [⟨[5], by decide⟩, ⟨[6], by decide⟩]

def videoPacket (i : Nat) : MediaEvent :=
  .batch ((threeVideoFrames[i]?.map submitVideoDataToStream).toList)

def audioPacket (i : Nat) : MediaEvent :=
  .batch ((twoAudioFrames[i]?.map submitAudioDataToStream).toList)

/-- The second call of `decode` throws. -/
def secondThrows : VideoBrowser where
  decodeQueueSize := fun _ => 0
  throws := fun n => n = 1

/-- The decoder of the video worker throws once and goes on; both decoders are closed by an error
after the last frame but one. -/
theorem decoders_usable_twoStreams :
    (∃ s : VideoRun (QueueRing.ringBuffer Bytes),
      (VideoRun.system _ secondThrows threeVideoFrames
        (VideoRun.Spared secondThrows threeVideoFrames)).Run
        [videoPacket 0, .round, .round, videoPacket 1, .round, .error] s ∧
      decodeStates s.decoding.calls = [.configured, .configured] ∧ s.Usable threeVideoFrames) ∧
    ∃ s : AudioRun (QueueRing.ringBuffer Bytes),
      (AudioRun.system _ (fun _ => false) twoAudioFrames
        (AudioRun.Spared (fun _ => false) twoAudioFrames)).Run
        [audioPacket 0, .round, .round, .error] s ∧
      decodeStates s.decoding.calls = [.configured] ∧ s.Usable twoAudioFrames := by
  have husable := decoders_usable (QueueRing.fifo Bytes)
  constructor
  · have hend : ∃ s : VideoRun (QueueRing.ringBuffer Bytes),
        (VideoRun.system _ secondThrows threeVideoFrames
          (VideoRun.Spared secondThrows threeVideoFrames)).Run
          [videoPacket 0, .round, .round, videoPacket 1, .round, .error] s ∧
        decodeStates s.decoding.calls = [.configured, .configured] :=
      Labelled.exists_run (by decide)
    obtain ⟨s, hrun, hstates⟩ := hend
    exact ⟨s, hrun, hstates, husable.1 _ _ _ _ hrun⟩
  · have hend : ∃ s : AudioRun (QueueRing.ringBuffer Bytes),
        (AudioRun.system _ (fun _ => false) twoAudioFrames
          (AudioRun.Spared (fun _ => false) twoAudioFrames)).Run
          [audioPacket 0, .round, .round, .error] s ∧
        decodeStates s.decoding.calls = [.configured] :=
      Labelled.exists_run (by decide)
    obtain ⟨s, hrun, hstates⟩ := hend
    exact ⟨s, hrun, hstates, husable.2 _ _ _ _ hrun⟩

/-- After an error the video worker calls `decode` on the closed decoder; after a call that has
thrown the audio worker calls it on one that `reset` has left unconfigured, and after an error it
does not decode at all. -/
theorem decoders_not_usable :
    (∃ s : VideoRun (QueueRing.ringBuffer Bytes),
      (VideoRun.system _ ⟨fun _ => 0, fun _ => false⟩ threeVideoFrames fun _ _ => True).Run
        [videoPacket 0, .round, .round, .error, videoPacket 1, .round] s ∧
      decodeStates s.decoding.calls = [.configured, .closed] ∧ ¬ s.Usable threeVideoFrames) ∧
    (∃ s : AudioRun (QueueRing.ringBuffer Bytes),
      (AudioRun.system _ (fun n => n = 0) twoAudioFrames fun _ _ => True).Run
        [audioPacket 0, .round, audioPacket 1, .round] s ∧
      decodeStates s.decoding.calls = [.configured, .unconfigured] ∧ ¬ s.Usable twoAudioFrames) ∧
    ∃ s : AudioRun (QueueRing.ringBuffer Bytes),
      (AudioRun.system _ (fun _ => false) twoAudioFrames fun _ _ => True).Run
        [audioPacket 0, .round, .round, .error, audioPacket 1] s ∧
      s.busy = false ∧ Arrived submitAudioDataToStream twoAudioFrames s.later 1 ∧
      decodedPackets s.decoding.calls = [0] ∧ ¬ s.Usable twoAudioFrames := by
  refine ⟨?_, ?_, ?_⟩
  · have hend : ∃ s : VideoRun (QueueRing.ringBuffer Bytes),
        (VideoRun.system _ ⟨fun _ => 0, fun _ => false⟩ threeVideoFrames fun _ _ => True).Run
          [videoPacket 0, .round, .round, .error, videoPacket 1, .round] s ∧
        decodeStates s.decoding.calls = [.configured, .closed] :=
      Labelled.exists_run (by decide)
    obtain ⟨s, hrun, hstates⟩ := hend
    refine ⟨s, hrun, hstates, fun husable => ?_⟩
    have hclosed : DecoderState.closed ∈ decodeStates s.decoding.calls := by
      rw [hstates]
      decide
    cases husable.configured.decodeStates hclosed
  · have hend : ∃ s : AudioRun (QueueRing.ringBuffer Bytes),
        (AudioRun.system _ (fun n => n = 0) twoAudioFrames fun _ _ => True).Run
          [audioPacket 0, .round, audioPacket 1, .round] s ∧
        decodeStates s.decoding.calls = [.configured, .unconfigured] :=
      Labelled.exists_run (by decide)
    obtain ⟨s, hrun, hstates⟩ := hend
    refine ⟨s, hrun, hstates, fun husable => ?_⟩
    have hunconfigured : DecoderState.unconfigured ∈ decodeStates s.decoding.calls := by
      rw [hstates]
      decide
    cases husable.configured.decodeStates hunconfigured
  · have hend : ∃ s : AudioRun (QueueRing.ringBuffer Bytes),
        (AudioRun.system _ (fun _ => false) twoAudioFrames fun _ _ => True).Run
          [audioPacket 0, .round, .round, .error, audioPacket 1] s ∧
        (s.busy, s.later, decodedPackets s.decoding.calls) = (false, [], [0]) :=
      Labelled.exists_run (by decide)
    obtain ⟨s, hrun, hresult⟩ := hend
    simp only [Prod.mk.injEq] at hresult
    obtain ⟨hidle, hlater, hpackets⟩ := hresult
    have harrived : Arrived submitAudioDataToStream twoAudioFrames s.later 1 := by
      rw [hlater]
      exact Nat.zero_le _
    refine ⟨s, hrun, hidle, harrived, hpackets, fun husable => ?_⟩
    have hgiven := husable.given hidle 1 ⟨[6], by decide⟩ rfl (by decide) harrived
    have hmem := hgiven.mem_decodedPackets
    rw [hpackets] at hmem
    exact absurd hmem (by decide)

end Stratus.Frontend
