import Stratus.Frontend.MediaStreams

/-! What the video worker takes off when the server opens its streams again, and when it takes
off each packet that has arrived. -/
namespace Stratus.Frontend

open Stratus.Lib Stratus.Transport

variable {R : RingBuffer Bytes}

/-! ### Chunks on their way -/

namespace TransportMediaStream

/-- The bytes that the worker has not handled. -/
def queued (m : TransportMediaStream) : Bytes := m.posted.flatten.flatten ++ m.pendingChunks.flatten

/-- What is pending will be flushed. -/
def Armed (m : TransportMediaStream) : Prop := m.pendingChunks ≠ [] → m.flushTimeout = true

variable {m : TransportMediaStream}

theorem flush_spec (m : TransportMediaStream) : m.flushPendingChunks.pendingChunks = [] ∧
    m.flushPendingChunks.queued = m.queued ∧ m.flushPendingChunks.reader = m.reader := by
  unfold flushPendingChunks
  split
  · next hempty => exact ⟨hempty, rfl, rfl⟩
  · refine ⟨rfl, ?_, rfl⟩
    simp only [queued, List.flatten_append, List.flatten_singleton, List.flatten_nil, List.append_nil]

theorem queueChunk_spec (h : m.Armed) (value : Bytes) : (m.queueChunk value).Armed ∧
    (m.queueChunk value).queued = m.queued ++ value ∧ (m.queueChunk value).reader = m.reader := by
  unfold queueChunk
  split
  · next hempty => exact ⟨h, by rw [hempty, List.append_nil], rfl⟩
  · have hqueued : ∀ m' : TransportMediaStream, m'.posted = m.posted →
        m'.pendingChunks = m.pendingChunks ++ [value] → m'.queued = m.queued ++ value := by
      intro m' hposted hpending
      rw [queued, queued, hposted, hpending, List.flatten_append, List.flatten_singleton, List.append_assoc]
    dsimp only
    split
    · obtain ⟨hpending, hflushed, hreader⟩ := flush_spec (clearFlushTimer
        { m with
          pendingChunks := m.pendingChunks ++ [value]
          pendingChunkBytes := m.pendingChunkBytes + value.length })
      exact ⟨fun hne => absurd hpending hne, hflushed.trans (hqueued _ rfl rfl), hreader⟩
    · exact ⟨fun _ => rfl, hqueued _ rfl rfl, rfl⟩

theorem finish_spec (m : TransportMediaStream) : m.finish.Armed ∧ m.finish.queued = m.queued := by
  obtain ⟨hpending, hqueued, _⟩ := flush_spec m.clearFlushTimer
  exact ⟨fun hne => absurd hpending hne, hqueued⟩

end TransportMediaStream

/-! ### Streams -/

namespace MediaStream

/-- What the server has written. -/
inductive Sent (st : MediaStream) : Prop where
  | video (hvideo : st.video = true)
      (hwritten : st.written = (st.frames.map submitVideoDataToStream).flatten)
  | audio (hvideo : st.video = false) (hframes : st.frames = []) (sounds : List AudioFrame)
      (hwritten : st.written = (sounds.map submitAudioDataToStream).flatten)

variable {st : MediaStream}

theorem sent_opened (video : Bool) : (opened video).Sent := by
  cases video with
  | true => exact .video rfl rfl
  | false => exact .audio rfl rfl [] rfl

theorem Sent.of_same {st' : MediaStream} (h : st.Sent) (hvideo : st'.video = st.video)
    (hframes : st'.frames = st.frames) (hwritten : st'.written = st.written) : st'.Sent := by
  cases h with
  | video h hold => exact .video (hvideo.trans h) (by rw [hwritten, hframes, hold])
  | audio h hold sounds hsounds =>
      exact .audio (hvideo.trans h) (hframes.trans hold) sounds (hwritten.trans hsounds)

theorem Sent.written_eq (h : st.Sent) (hvideo : st.video = true) :
    st.written = (st.frames.map submitVideoDataToStream).flatten := by
  cases h with
  | video _ hwritten => exact hwritten
  | audio haudio => exact absurd (hvideo.symm.trans haudio) Bool.noConfusion

theorem Sent.frames_eq (h : st.Sent) (haudio : st.video = false) : st.frames = [] := by
  cases h with
  | video hvideo _ => exact absurd (hvideo.symm.trans haudio) Bool.noConfusion
  | audio _ hframes => exact hframes

theorem Sent.write_video (h : st.Sent) (hvideo : st.video = true) (frame : VideoFrame) :
    (st.write [frame] (submitVideoDataToStream frame)).Sent := by
  refine .video hvideo ?_
  change st.written ++ _ = ((st.frames ++ [frame]).map submitVideoDataToStream).flatten
  rw [h.written_eq hvideo, List.map_append, List.flatten_append, List.map_singleton,
    List.flatten_singleton]

theorem Sent.write_audio (h : st.Sent) (haudio : st.video = false) (frame : AudioFrame) :
    (st.write [] (submitAudioDataToStream frame)).Sent := by
  cases h with
  | video hvideo _ => exact absurd (hvideo.symm.trans haudio) Bool.noConfusion
  | audio _ hframes sounds hwritten =>
      refine .audio haudio ((List.append_nil _).trans hframes) (sounds ++ [frame]) ?_
      change st.written ++ _ = _
      rw [hwritten, List.map_append, List.flatten_append, List.map_singleton, List.flatten_singleton]

theorem delivered_write (st : MediaStream) (frames : List VideoFrame) (packet : Bytes) :
    (st.write frames packet).delivered = st.delivered :=
  List.take_append_of_le_length st.read_le

theorem submitVideo_pos (frame : VideoFrame) : 0 < (submitVideoDataToStream frame).length := by
  rw [length_submitVideo]
  omega

/-- A frame that is written now has not arrived. -/
theorem Sent.arrived_write (h : st.Sent) (hvideo : st.video = true) (frame : VideoFrame) :
    (st.write [frame] (submitVideoDataToStream frame)).arrived = st.arrived :=
  whole_snoc (submitVideo_pos frame) (h.written_eq hvideo ▸ st.read_le)

theorem arrived_of_read (h : st.read = 0) : st.arrived = [] := by
  have hlength := length_whole_le submitVideoDataToStream st.frames st.read
  unfold arrived
  cases hwhole : whole submitVideoDataToStream st.frames st.read with
  | nil => rfl
  | cons frame frames =>
      have hpos := submitVideo_pos frame
      rw [hwhole, h, List.map_cons, List.flatten_cons, List.length_append] at hlength
      omega

theorem arrived_of_frames (h : st.frames = []) : st.arrived = [] := by
  rw [arrived, h]
  rfl

theorem delivered_of_read (h : st.read = 0) : st.delivered = [] := by
  rw [delivered, h, List.take_zero]

theorem length_delivered (st : MediaStream) : st.delivered.length = st.read :=
  List.length_take_of_le st.read_le

/-- At the end of a packet there is nothing but the frames. -/
theorem Sent.delivered_eq (h : st.Sent) (hvideo : st.video = true) (hend : st.AtBoundary) :
    st.delivered = (st.arrived.map submitVideoDataToStream).flatten := by
  obtain ⟨rest, hrest⟩ := whole_prefix submitVideoDataToStream st.frames st.read
  have hwritten : st.written = (st.arrived.map submitVideoDataToStream).flatten ++
      (rest.map submitVideoDataToStream).flatten := by
    rw [h.written_eq hvideo, ← hrest, List.map_append, List.flatten_append]
    rfl
  rw [delivered, hwritten]
  exact List.take_left' hend

/-- The next bytes of the stream. -/
theorem readChunk_spec {length : Nat} {value : Bytes} {st' : MediaStream}
    (h : st.readChunk length = some (value, st')) :
    (∃ hle, st' = { st with read := st.read + length, read_le := hle }) ∧ value.length = length ∧
      value = (st.written.drop st.read).take length ∧ st'.delivered = st.delivered ++ value := by
  unfold readChunk at h
  split at h
  · next hle =>
    cases h
    refine ⟨⟨hle, rfl⟩, ?_, rfl, List.take_add⟩
    rw [List.length_take, List.length_drop]
    omega
  · cases h

/-- The first chunk of a stream is routed by what the server writes on it. -/
theorem Sent.routed (h : st.Sent) {length : Nat} {value : Bytes} (hvalue : value = st.written.take length)
    (hne : value ≠ []) :
    routeIncomingStream value = some (if st.video then .video else .audio) := by
  have hhead : value.head? = st.written.head? := by
    cases length with
    | zero => exact absurd hvalue hne
    | succ length =>
        rw [hvalue]
        cases st.written <;> rfl
  have hwritten : st.written ≠ [] := by
    rintro hempty
    rw [hvalue, hempty, List.take_nil] at hne
    exact hne rfl
  cases h with
  | video hvideo hframes =>
      rw [hvideo]
      cases hlist : st.frames with
      | nil => exact absurd (by rw [hframes, hlist]; rfl) hwritten
      | cons frame frames =>
          rw [hframes, hlist] at hhead
          rw [routeIncomingStream, hhead]
          rfl
  | audio haudio _ sounds hsounds =>
      rw [haudio]
      cases sounds with
      | nil => exact absurd hsounds hwritten
      | cons frame sounds =>
          rw [hsounds] at hhead
          rw [routeIncomingStream, hhead]
          rfl

end MediaStream

/-! ### Sessions -/

namespace MediaSession

def deliveredOn (s : MediaSession R) (i : Nat) : Bytes := s.streams[i]?.elim [] MediaStream.delivered

/-- What is known of the stream `i`. -/
structure Knows (s : MediaSession R) (i : Nat) (st : MediaStream) : Prop where
  sent : st.Sent
  videoStream : s.videoStream = some i → st.video = true
  audioStream : s.audioStream = some i → st.video = false
  routing : st.reader = .routing → st.read = 0 ∧ i ∉ s.started
  unstarted : i ∉ s.started → st.video = true → st.read = 0
  started : i ∈ s.started → st.video = true
  reads : st.reader = .video → s.media.reader = some i
  audio : st.reader = .audio → st.video = false

/-- All streams before the last one have ended at the end of a packet; the worker has got, or will
get, what was received of them. -/
structure Inv (fifo : R.Fifo) (s : MediaSession R) : Prop where
  knows : ∀ i st, s.streams[i]? = some st → s.Knows i st
  last : ∀ i, s.media.reader = some i → s.started.getLast? = some i
  once : s.started.Nodup
  exist : ∀ i ∈ s.started, i < s.streams.length
  boundary : ∀ i ∈ s.started.dropLast, ∀ st ∈ s.streams[i]?, st.AtBoundary
  bytes : s.received.flatten.flatten ++ s.media.queued = s.started.flatMap s.deliveredOn
  armed : s.media.Armed
  reads : ∀ frames later,
    s.received.flatten.flatten ++ later = (frames.map submitVideoDataToStream).flatten →
    s.worker.Reads fifo frames later

variable {fifo : R.Fifo} {s t : MediaSession R} {i : Nat} {st st' : MediaStream}
  {m : TransportMediaStream} {value : Bytes}

theorem Knows.same (h : s.Knows i st) (hvideo : t.videoStream = s.videoStream)
    (haudio : t.audioStream = s.audioStream) (hstarted : t.started = s.started)
    (hreader : s.media.reader = some i → t.media.reader = some i) : t.Knows i st where
  sent := h.sent
  videoStream hpointer := h.videoStream (hvideo.symm.trans hpointer)
  audioStream hpointer := h.audioStream (haudio.symm.trans hpointer)
  routing hrouting := ⟨(h.routing hrouting).1, hstarted ▸ (h.routing hrouting).2⟩
  unstarted hnot := h.unstarted (hstarted ▸ hnot)
  started hi := h.started (hstarted ▸ hi)
  reads hreads := hreader (h.reads hreads)
  audio := h.audio

theorem Knows.not_started (h : s.Knows i st) (haudio : st.video = false) : i ∉ s.started :=
  fun hi => absurd ((h.started hi).symm.trans haudio) Bool.noConfusion

theorem start_inv (fifo : R.Fifo) : (start R).Inv fifo where
  knows i st hst := by cases hst
  last i hreader := by cases hreader
  once := List.nodup_nil
  exist := nofun
  boundary := nofun
  bytes := rfl
  armed := fun hne => absurd rfl hne
  reads frames later hlater := by
    have hreads := VideoReading.start_reads fifo frames
    rwa [← hlater] at hreads

theorem elim_set (hst : s.streams[i]? = some st) {α : Type} (f : MediaStream → List α) (j : Nat) :
    (s.streams.set i st')[j]?.elim [] f = if j = i then f st' else s.streams[j]?.elim [] f := by
  by_cases hj : j = i
  · subst hj
    rw [if_pos rfl, List.getElem?_set_self (List.getElem?_eq_some_iff.mp hst).1]
    rfl
  · rw [if_neg hj, List.getElem?_set_ne fun heq => hj heq.symm]

theorem deliveredOn_eq (hst : s.streams[i]? = some st) : s.deliveredOn i = st.delivered := by
  rw [deliveredOn, hst]
  rfl

/-- One stream changes, and what is on its way to the worker. -/
theorem Inv.set (h : s.Inv fifo) (hst : s.streams[i]? = some st)
    (hknows : Knows { s with streams := s.streams.set i st', media := m } i st')
    (hend : i ∈ s.started.dropLast → st.AtBoundary → st'.AtBoundary)
    (hothers : ∀ j, j ≠ i → s.media.reader = some j → m.reader = some j)
    (hreader : ∀ j, m.reader = some j → s.media.reader = some j) (harmed : m.Armed)
    (hbytes : s.received.flatten.flatten ++ m.queued =
      s.started.flatMap fun j => (s.streams.set i st')[j]?.elim [] MediaStream.delivered) :
    Inv fifo { s with streams := s.streams.set i st', media := m } where
  knows j stj hstj := by
    rcases getElem?_set_cases hstj with ⟨rfl, rfl⟩ | ⟨hne, hold⟩
    · exact hknows
    · exact (h.knows j stj hold).same rfl rfl rfl (hothers j hne)
  last j hj := h.last j (hreader j hj)
  once := h.once
  exist j hj := by
    rw [List.length_set]
    exact h.exist j hj
  boundary j hj stj hstj := by
    rcases getElem?_set_cases hstj with ⟨rfl, rfl⟩ | ⟨_, hold⟩
    · exact hend hj (h.boundary _ hj st hst)
    · exact h.boundary j hj stj hold
  bytes := hbytes
  armed := harmed
  reads := h.reads

/-- The other streams have delivered what they had. -/
theorem delivered_others (hst : s.streams[i]? = some st) {order : List Nat} (hnot : i ∉ order) :
    (order.flatMap fun j => (s.streams.set i st')[j]?.elim [] MediaStream.delivered) =
      order.flatMap s.deliveredOn := by
  refine List.flatMap_congr fun j hj => ?_
  rw [elim_set hst, if_neg fun heq : j = i => hnot (heq ▸ hj)]
  rfl

/-- One stream changes in what the worker does not see. -/
theorem Inv.keep (h : s.Inv fifo) (hst : s.streams[i]? = some st)
    (hknows : Knows { s with streams := s.streams.set i st', media := m } i st')
    (hsame : i ∈ s.started → st'.delivered = st.delivered ∧ (st.AtBoundary → st'.AtBoundary))
    (hothers : ∀ j, j ≠ i → s.media.reader = some j → m.reader = some j)
    (hreader : ∀ j, m.reader = some j → s.media.reader = some j)
    (hqueued : m.queued = s.media.queued) (harmed : m.Armed) :
    Inv fifo { s with streams := s.streams.set i st', media := m } := by
  refine h.set hst hknows (fun hi => (hsame (List.dropLast_subset _ hi)).2) hothers hreader harmed ?_
  rw [hqueued, h.bytes]
  refine List.flatMap_congr fun j hj => ?_
  rw [elim_set hst]
  split
  · next heq =>
    subst heq
    rw [(hsame hj).1, deliveredOn_eq hst]
  · rfl

theorem eq_snoc_of_getLast? {l : List Nat} (h : l.getLast? = some i) : l = l.dropLast ++ [i] := by
  obtain ⟨before, rfl⟩ := List.getLast?_eq_some_iff.mp h
  rw [List.dropLast_concat]

theorem not_mem_dropLast {l : List Nat} (hl : l.Nodup) (h : l.getLast? = some i) : i ∉ l.dropLast := by
  rw [eq_snoc_of_getLast? h] at hl
  exact fun hmem => (List.nodup_append.mp hl).2.2 i hmem i List.mem_cons_self rfl

/-! Each step. -/

theorem Inv.write (h : s.Inv fifo) (hst : s.streams[i]? = some st) {frames : List VideoFrame}
    {packet : Bytes} (hsent : (st.write frames packet).Sent)
    (harrived : i ∈ s.started → (st.write frames packet).arrived = st.arrived) :
    Inv fifo { s with streams := s.streams.modify i (·.write frames packet) } := by
  have hk := h.knows i st hst
  have hmodify : s.streams.modify i (·.write frames packet) =
      s.streams.set i (st.write frames packet) := by
    rw [List.modify_eq_set_getElem?, hst]
    rfl
  rw [hmodify]
  refine h.keep (m := s.media) hst ⟨hsent, hk.videoStream, hk.audioStream, hk.routing, hk.unstarted,
    hk.started, hk.reads, hk.audio⟩ (fun hi => ⟨st.delivered_write _ _, fun hend => ?_⟩)
    (fun _ _ hj => hj) (fun _ hj => hj) rfl h.armed
  unfold MediaStream.AtBoundary
  rw [harrived hi]
  exact hend

theorem Inv.submit (h : s.Inv fifo) {pointer : Option Nat} {frames : List VideoFrame} {packet : Bytes}
    (hwrite : ∀ i st, pointer = some i → s.streams[i]? = some st →
      (st.write frames packet).Sent ∧ (i ∈ s.started → (st.write frames packet).arrived = st.arrived))
    (canWrite ok : Bool) : (s.submit pointer frames packet canWrite ok).Inv fifo := by
  unfold MediaSession.submit
  split
  · exact h
  · next i =>
    split
    · cases hst : s.streams[i]? with
      | none =>
          rw [List.modify_eq_self (List.getElem?_eq_none_iff.mp hst)]
          exact h
      | some st =>
          obtain ⟨hsent, harrived⟩ := hwrite i st rfl hst
          exact h.write hst hsent harrived
    · exact h

theorem Inv.submitVideo (h : s.Inv fifo) (frame : VideoFrame) (canWrite ok : Bool) :
    (s.submit s.videoStream [frame] (submitVideoDataToStream frame) canWrite ok).Inv fifo := by
  refine h.submit (fun i st hpointer hst => ?_) canWrite ok
  have hk := h.knows i st hst
  have hvideo := hk.videoStream hpointer
  exact ⟨hk.sent.write_video hvideo frame, fun _ => hk.sent.arrived_write hvideo frame⟩

theorem Inv.submitAudio (h : s.Inv fifo) (frame : AudioFrame) (canWrite ok : Bool) :
    (s.submit s.audioStream [] (submitAudioDataToStream frame) canWrite ok).Inv fifo := by
  refine h.submit (fun i st hpointer hst => ?_) canWrite ok
  have hk := h.knows i st hst
  have haudio := hk.audioStream hpointer
  exact ⟨hk.sent.write_audio haudio frame, fun hi => absurd hi (hk.not_started haudio)⟩

theorem openStream_spec (streams : List MediaStream) (video credit : Bool) :
    streams <+: (openOutgoingUnidirectionalStream streams video credit).1 ∧
      (∀ i ∈ (openOutgoingUnidirectionalStream streams video credit).2, streams.length ≤ i ∧
        i < (openOutgoingUnidirectionalStream streams video credit).1.length) ∧
      ∀ i st, (openOutgoingUnidirectionalStream streams video credit).1[i]? = some st →
        streams[i]? = some st ∨ (st = .opened video ∧ streams.length = i) := by
  unfold openOutgoingUnidirectionalStream
  cases credit with
  | false => exact ⟨List.prefix_refl _, nofun, fun _ _ hst => .inl hst⟩
  | true =>
      refine ⟨List.prefix_append _ _, fun i hi => ?_, fun i st hst => ?_⟩
      · obtain rfl := Option.some.inj hi
        exact ⟨Nat.le_refl _, by simp⟩
      · rcases getElem?_snoc_cases hst with hold | ⟨rfl, rfl⟩
        · exact .inl hold
        · exact .inr ⟨rfl, rfl⟩

/-- Nothing is known of a new stream but what it was opened for. -/
theorem knows_opened {video : Bool} (hstarted : i ∉ s.started)
    (hvideo : s.videoStream = some i → video = true) (haudio : s.audioStream = some i → video = false) :
    s.Knows i (.opened video) :=
  ⟨MediaStream.sent_opened video, hvideo, haudio, fun _ => ⟨rfl, hstarted⟩, fun _ _ => rfl,
    fun hi => absurd hi hstarted, nofun, nofun⟩

theorem Inv.canCreate (h : s.Inv fifo) (videoCredit audioCredit : Bool) :
    (s.onCanCreateNewOutgoingUnidirectionalStream videoCredit audioCredit).Inv fifo := by
  obtain ⟨hfirst, hvideo, hvideos⟩ := openStream_spec s.streams true videoCredit
  obtain ⟨hsecond, haudio, haudios⟩ :=
    openStream_spec (openOutgoingUnidirectionalStream s.streams true videoCredit).1 false audioCredit
  have hall := hfirst.trans hsecond
  have hsame : ∀ i ∈ s.started, (s.onCanCreateNewOutgoingUnidirectionalStream videoCredit
      audioCredit).streams[i]? = s.streams[i]? := by
    intro i hi
    have hlt := h.exist i hi
    rw [List.getElem?_eq_getElem hlt]
    exact List.prefix_iff_getElem?.mp hall i hlt
  refine ⟨?_, h.last, h.once, fun i hi => (h.exist i hi).trans_le hall.length_le, ?_, ?_, h.armed, h.reads⟩
  · intro i st hst
    rcases haudios i st hst with hold | ⟨rfl, rfl⟩
    · have hlt := (List.getElem?_eq_some_iff.mp hold).1
      rcases hvideos i st hold with hold | ⟨rfl, rfl⟩
      · have hk := h.knows i st hold
        have hlt' := (List.getElem?_eq_some_iff.mp hold).1
        refine ⟨hk.sent, fun hpointer => ?_, fun hpointer => ?_, hk.routing, hk.unstarted, hk.started,
          hk.reads, hk.audio⟩
        · exact absurd (hvideo i hpointer).1 (Nat.not_le.mpr hlt')
        · exact absurd (haudio i hpointer).1 (Nat.not_le.mpr hlt)
      · refine knows_opened (fun hi => Nat.lt_irrefl _ (h.exist _ hi)) (fun _ => rfl) fun hpointer => ?_
        exact absurd (haudio _ hpointer).1 (Nat.not_le.mpr hlt)
    · refine knows_opened (fun hi => ?_) (fun hpointer => ?_) fun _ => rfl
      · exact Nat.lt_irrefl _ ((h.exist _ hi).trans_le hfirst.length_le)
      · exact absurd (hvideo _ hpointer).2 (Nat.lt_irrefl _)
  · intro i hi st hst
    exact h.boundary i hi st ((hsame i (List.dropLast_subset _ hi)).symm.trans hst)
  · refine h.bytes.trans (List.flatMap_congr fun i hi => ?_)
    exact congrArg (fun found : Option MediaStream => found.elim [] MediaStream.delivered) (hsame i hi).symm

theorem Inv.sessionReady (h : s.Inv fifo) (canOpen videoCredit audioCredit : Bool) :
    (s.onSessionReady canOpen videoCredit audioCredit).Inv fifo := by
  have hready : Inv fifo { s with ready := true } := by
    refine ⟨fun i st hst => ?_, h.last, h.once, h.exist, h.boundary, h.bytes, h.armed, h.reads⟩
    exact (h.knows i st hst).same rfl rfl rfl id
  unfold onSessionReady
  split
  · exact hready.canCreate videoCredit audioCredit
  · exact hready

/-- The bytes of the stream that is read go to the worker. -/
theorem Inv.grow (h : s.Inv fifo) (hst : s.streams[i]? = some st) (hi : s.media.reader = some i)
    (hknows : Knows { s with streams := s.streams.set i st', media := m } i st')
    (hdelivered : st'.delivered = st.delivered ++ value) (hreader : m.reader = s.media.reader)
    (hqueued : m.queued = s.media.queued ++ value) (harmed : m.Armed) :
    Inv fifo { s with streams := s.streams.set i st', media := m } := by
  have hnot := not_mem_dropLast h.once (h.last i hi)
  have hlast := eq_snoc_of_getLast? (h.last i hi)
  refine h.set hst hknows (fun hmem => absurd hmem hnot) (fun j _ hj => hreader.trans hj)
    (fun j hj => hreader.symm.trans hj) harmed ?_
  rw [hqueued, ← List.append_assoc, h.bytes, hlast, List.flatMap_append, List.flatMap_append,
    delivered_others hst hnot, List.flatMap_singleton, List.flatMap_singleton, elim_set hst, if_pos rfl,
    deliveredOn_eq hst, hdelivered, List.append_assoc]

/-- A reader that finds the session free. -/
theorem Inv.startVideo (h : s.Inv fifo) (hst : s.streams[i]? = some st) (hvideo : st.video = true)
    (hrouting : st.reader = .routing) (hfree : s.Free) (hsent : st'.Sent) (hvideo' : st'.video = true)
    (hdelivered : st'.delivered = st.delivered ++ value) : (s.startVideo i st' value).Inv fifo := by
  obtain ⟨hread, hstarted⟩ := (h.knows i st hst).routing hrouting
  unfold MediaSession.startVideo
  rw [hfree.1]
  have harmed : TransportMediaStream.Armed { s.media with reader := some i } := h.armed
  obtain ⟨harmed', hqueued, hreader⟩ := TransportMediaStream.queueChunk_spec harmed value
  have hlt := (List.getElem?_eq_some_iff.mp hst).1
  refine ⟨fun j stj hstj => ?_, fun j hj => ?_, ?_, fun j hj => ?_, fun j hj stj hstj => ?_, ?_, harmed', h.reads⟩
  · rcases getElem?_set_cases hstj with ⟨rfl, rfl⟩ | ⟨hne, hold⟩
    · exact ⟨hsent.of_same rfl rfl rfl, fun _ => hvideo', fun hpointer =>
          absurd (((h.knows _ st hst).audioStream hpointer).symm.trans hvideo) Bool.noConfusion, nofun,
        fun hnot => absurd (List.mem_append_right _ List.mem_cons_self) hnot, fun _ => hvideo',
        fun _ => hreader, nofun⟩
    · have hk := h.knows j stj hold
      have hmem : j ∈ s.started ++ [i] ↔ j ∈ s.started := by simp [hne]
      refine ⟨hk.sent, hk.videoStream, hk.audioStream, fun hj => ?_, fun hj => ?_, fun hj => ?_, fun hj => ?_,
        hk.audio⟩
      · exact ⟨(hk.routing hj).1, fun hj' => (hk.routing hj).2 (hmem.mp hj')⟩
      · exact hk.unstarted fun hj' => hj (hmem.mpr hj')
      · exact hk.started (hmem.mp hj)
      · have hnone := hk.reads hj
        rw [hfree.1] at hnone
        cases hnone
  · rw [hreader] at hj
    obtain rfl := Option.some.inj hj
    exact List.getLast?_concat
  · exact List.nodup_append.mpr ⟨h.once, List.nodup_cons.mpr ⟨List.not_mem_nil, List.nodup_nil⟩,
      fun j hj k hk heq => hstarted (List.mem_singleton.mp hk ▸ heq ▸ hj)⟩
  · rw [List.length_set]
    rcases List.mem_append.mp hj with hj | hj
    · exact h.exist j hj
    · exact List.mem_singleton.mp hj ▸ hlt
  · rw [List.dropLast_concat] at hj
    rcases getElem?_set_cases hstj with ⟨rfl, _⟩ | ⟨_, hold⟩
    · exact absurd hj hstarted
    · exact hfree.2 j hj stj hold
  · change _ ++ TransportMediaStream.queued _ = (s.started ++ [i]).flatMap fun j =>
      (s.streams.set i { st' with reader := .video })[j]?.elim [] MediaStream.delivered
    rw [hqueued, List.flatMap_append, delivered_others hst hstarted, List.flatMap_singleton, elim_set hst,
      if_pos rfl, ← List.append_assoc]
    refine congrArg₂ (· ++ ·) h.bytes ?_
    rw [MediaStream.delivered_of_read hread, List.nil_append] at hdelivered
    exact hdelivered.symm

/-- The reader of a stream that does not reach the worker. -/
theorem Inv.aside (h : s.Inv fifo) (hst : s.streams[i]? = some st) (hnot : i ∉ s.started)
    (hsent : st'.Sent) (hvideo : st'.video = st.video) (hread : st.video = true → st'.read = 0)
    (hrouting : st'.reader = .routing → st'.read = 0) (hreads : st'.reader ≠ .video)
    (haudio : st'.reader = .audio → st'.video = false) :
    Inv fifo { s with streams := s.streams.set i st' } := by
  have hk := h.knows i st hst
  refine h.keep (m := s.media) hst ⟨hsent, fun hpointer => hvideo.trans (hk.videoStream hpointer),
    fun hpointer => hvideo.trans (hk.audioStream hpointer), fun hreader => ⟨hrouting hreader, hnot⟩,
    fun _ hv => hread (hvideo.symm.trans hv), fun hi => absurd hi hnot, fun hv => absurd hv hreads, haudio⟩
    (fun hi => absurd hi hnot) (fun _ _ hj => hj) (fun _ hj => hj) rfl h.armed

theorem Inv.chunk (h : s.Inv fifo) (hst : s.streams[i]? = some st) {length : Nat}
    (horderly : st.reader = .routing → st.video = true → 0 < length → s.Free)
    (hread : st.readChunk length = some (value, st')) (hnext : s.receiveChunk i st' value = some t) :
    t.Inv fifo := by
  have hk := h.knows i st hst
  obtain ⟨⟨hle, rfl⟩, hlength, hvalue, hdelivered⟩ := MediaStream.readChunk_spec hread
  have hsent : MediaStream.Sent { st with read := st.read + length, read_le := hle } :=
    hk.sent.of_same rfl rfl rfl
  unfold receiveChunk at hnext
  dsimp only at hnext
  cases hreader : st.reader with
  | routing =>
      obtain ⟨hzero, hnot⟩ := hk.routing hreader
      rw [hreader] at hnext
      dsimp only at hnext
      by_cases hempty : value = []
      · rw [if_pos hempty] at hnext
        cases hnext
        obtain rfl : length = 0 := by rw [← hlength, hempty, List.length_nil]
        exact h.aside hst hnot (hsent.of_same rfl rfl rfl) rfl (fun _ => hzero) (fun _ => hzero) nofun nofun
      · rw [hzero, List.drop_zero] at hvalue
        rw [if_neg hempty, hk.sent.routed hvalue hempty] at hnext
        cases hvideo : st.video with
        | true =>
            rw [hvideo] at hnext
            cases hnext
            have hpos : 0 < length := hlength ▸ List.length_pos_iff.mpr hempty
            exact h.startVideo hst hvideo hreader (horderly hreader hvideo hpos) (hsent.of_same hvideo.symm rfl rfl)
              rfl hdelivered
        | false =>
            rw [hvideo] at hnext
            cases hnext
            exact h.aside hst hnot (hsent.of_same hvideo.symm rfl rfl) hvideo.symm
              (fun htrue => absurd (htrue.symm.trans hvideo) Bool.noConfusion) nofun nofun fun _ => rfl
  | video =>
      rw [hreader] at hnext
      cases hnext
      have hreads := hk.reads hreader
      obtain ⟨harmed, hqueued, hkept⟩ := TransportMediaStream.queueChunk_spec h.armed value
      have hstarted : i ∈ s.started := List.mem_of_getLast? (h.last i hreads)
      exact h.grow hst hreads ⟨hsent.of_same rfl rfl rfl, hk.videoStream, hk.audioStream, nofun,
        fun hnot => absurd hstarted hnot, hk.started, fun _ => hkept.trans hreads, nofun⟩ hdelivered hkept
        hqueued harmed
  | audio =>
      rw [hreader] at hnext
      cases hnext
      have haudio := hk.audio hreader
      exact h.aside hst (hk.not_started haudio) (hsent.of_same rfl rfl rfl) rfl
        (fun htrue => absurd (htrue.symm.trans haudio) Bool.noConfusion) nofun nofun fun _ => haudio
  | cancelled =>
      rw [hreader] at hnext
      cases hnext
  | closed =>
      rw [hreader] at hnext
      cases hnext

theorem Inv.ended (h : s.Inv fifo) (hst : s.streams[i]? = some st)
    (hnext : s.streamEnded i st = some t) : t.Inv fifo := by
  have hk := h.knows i st hst
  have hsent : MediaStream.Sent { st with reader := .closed } := hk.sent.of_same rfl rfl rfl
  unfold streamEnded at hnext
  cases hreader : st.reader with
  | routing =>
      rw [hreader] at hnext
      cases hnext
      obtain ⟨hzero, hnot⟩ := hk.routing hreader
      exact h.aside hst hnot hsent rfl (fun _ => hzero) nofun nofun nofun
  | video =>
      rw [hreader] at hnext
      cases hnext
      have hreads := hk.reads hreader
      obtain ⟨harmed, hqueued⟩ := s.media.finish_spec
      refine h.keep hst ⟨hsent, hk.videoStream, hk.audioStream, nofun, hk.unstarted, hk.started, nofun, nofun⟩
        (fun _ => ⟨rfl, id⟩) (fun j hne hj => ?_) nofun hqueued harmed
      exact absurd (Option.some.inj (hj.symm.trans hreads)) hne
  | audio =>
      rw [hreader] at hnext
      cases hnext
      have haudio := hk.audio hreader
      exact h.aside hst (hk.not_started haudio) hsent rfl
        (fun htrue => absurd (htrue.symm.trans haudio) Bool.noConfusion) nofun nofun nofun
  | cancelled =>
      rw [hreader] at hnext
      cases hnext
  | closed =>
      rw [hreader] at hnext
      cases hnext

theorem Inv.flush (h : s.Inv fifo) :
    Inv fifo { s with media := s.media.clearFlushTimer.flushPendingChunks } := by
  obtain ⟨hpending, hqueued, hreader⟩ := s.media.clearFlushTimer.flush_spec
  refine ⟨fun i st hst => ?_, fun i hi => h.last i (hreader.symm.trans hi), h.once, h.exist, h.boundary, ?_,
    fun hne => absurd hpending hne, h.reads⟩
  · exact (h.knows i st hst).same rfl rfl rfl hreader.trans
  · exact (congrArg (s.received.flatten.flatten ++ ·) hqueued).trans h.bytes

/-- The worker with the next batch. -/
def worked (s : MediaSession R) (browser : VideoBrowser) (batch : List Bytes) (posted : List (List Bytes)) :
    MediaSession R :=
  { s with
    media := { s.media with posted := posted }
    worker := s.worker.handleChunkBatch browser batch
    received := s.received ++ [batch] }

theorem Inv.work (h : s.Inv fifo) {browser : VideoBrowser} (haccepts : VideoReading.Accepts browser)
    {batch : List Bytes} {posted : List (List Bytes)} (hposted : s.media.posted = batch :: posted) :
    (s.worked browser batch posted).Inv fifo := by
  have hreceived : (s.received ++ [batch]).flatten.flatten = s.received.flatten.flatten ++ batch.flatten := by
    rw [List.flatten_append, List.flatten_append, List.flatten_singleton]
  refine ⟨fun i st hst => ?_, h.last, h.once, h.exist, h.boundary, ?_, h.armed, fun frames later hlater => ?_⟩
  · exact (h.knows i st hst).same rfl rfl rfl id
  · refine Eq.trans ?_ h.bytes
    change (s.received ++ [batch]).flatten.flatten ++ (posted.flatten.flatten ++ s.media.pendingChunks.flatten) =
      s.received.flatten.flatten ++ (s.media.posted.flatten.flatten ++ s.media.pendingChunks.flatten)
    rw [hreceived, hposted, List.flatten_cons, List.flatten_append]
    simp only [List.append_assoc]
  · have hlater' : (s.received ++ [batch]).flatten.flatten ++ later = _ := hlater
    rw [hreceived, List.append_assoc] at hlater'
    exact VideoReading.handleChunkBatch_reads haccepts (h.reads frames _ hlater')

/-- Every step that is in order. -/
theorem Inv.next (h : s.Inv fifo) {step : MediaStep} (horderly : s.Orderly step)
    (hnext : s.next step = some t) : t.Inv fifo := by
  cases step with
  | sessionReady canOpen videoCredit audioCredit =>
      rw [MediaSession.next] at hnext
      split at hnext
      · cases hnext
      · cases hnext
        exact h.sessionReady canOpen videoCredit audioCredit
  | canCreate videoCredit audioCredit =>
      cases hnext
      exact h.canCreate videoCredit audioCredit
  | submitVideo frame canWrite ok =>
      cases hnext
      exact h.submitVideo frame canWrite ok
  | submitAudio frame canWrite ok =>
      cases hnext
      exact h.submitAudio frame canWrite ok
  | chunk i length =>
      obtain ⟨st, hst, hrest⟩ := Option.bind_eq_some_iff.mp hnext
      obtain ⟨⟨value, st'⟩, hread, hreceive⟩ := Option.bind_eq_some_iff.mp hrest
      exact h.chunk hst (horderly st hst) hread hreceive
  | ended i =>
      obtain ⟨st, hst, hended⟩ := Option.bind_eq_some_iff.mp hnext
      exact h.ended hst hended
  | timer =>
      rw [MediaSession.next] at hnext
      split at hnext
      · cases hnext
        exact h.flush
      · cases hnext
  | work browser =>
      rw [MediaSession.next] at hnext
      split at hnext
      · cases hnext
      · next batch posted hposted =>
        cases hnext
        exact h.work horderly hposted
  | decoderError => exact horderly.elim

theorem run_inv {trace : List MediaStep} (hs : (system R Orderly).Run trace s) : s.Inv fifo := by
  refine hs.always (fun s => s.Inv fifo) ?_ fun s step t h hstep => h.next hstep.1 hstep.2
  rintro s rfl
  exact start_inv fifo

/-! What the worker takes off. -/

theorem arrivedOn_eq (hst : s.streams[i]? = some st) : s.arrivedOn i = st.arrived := by
  rw [arrivedOn, hst]
  rfl

/-- What was received of the streams is the beginning of one stream of packets. -/
theorem Inv.stream (h : s.Inv fifo) : ∃ frames rest,
    s.started.flatMap s.deliveredOn ++ rest = (frames.map submitVideoDataToStream).flatten ∧
      whole submitVideoDataToStream frames (s.started.flatMap s.deliveredOn).length =
        s.started.flatMap s.arrivedOn := by
  cases hlast : s.started.getLast? with
  | none =>
      rw [List.getLast?_eq_none_iff.mp hlast]
      exact ⟨[], [], rfl, rfl⟩
  | some i =>
      obtain ⟨before, hsplit⟩ := List.getLast?_eq_some_iff.mp hlast
      have hmem : i ∈ s.started := List.mem_of_getLast? hlast
      obtain ⟨st, hst⟩ : ∃ st, s.streams[i]? = some st := ⟨_, List.getElem?_eq_getElem (h.exist i hmem)⟩
      have hk := h.knows i st hst
      have hboundary := h.boundary
      rw [hsplit, List.dropLast_concat] at hboundary
      have hbefore : before.flatMap s.deliveredOn =
          ((before.flatMap s.arrivedOn).map submitVideoDataToStream).flatten := by
        rw [← List.flatMap_def, List.flatMap_assoc]
        refine List.flatMap_congr fun j hj => ?_
        have hj' : j ∈ s.started := hsplit ▸ List.mem_append_left _ hj
        have hstj := List.getElem?_eq_getElem (h.exist j hj')
        have hkj := h.knows j _ hstj
        rw [deliveredOn_eq hstj, arrivedOn_eq hstj, List.flatMap_def]
        exact hkj.sent.delivered_eq (hkj.started hj') (hboundary j hj _ hstj)
      refine ⟨before.flatMap s.arrivedOn ++ st.frames, st.written.drop st.read, ?_, ?_⟩
      · rw [hsplit, List.flatMap_append, List.flatMap_singleton, hbefore, deliveredOn_eq hst, List.map_append,
          List.flatten_append, ← hk.sent.written_eq (hk.started hmem), List.append_assoc,
          MediaStream.delivered, List.take_append_drop]
      · rw [hsplit, List.flatMap_append, List.flatMap_append, List.flatMap_singleton, List.flatMap_singleton,
          hbefore, List.length_append, deliveredOn_eq hst, MediaStream.length_delivered, whole_append,
          arrivedOn_eq hst]
        rfl

theorem Inv.extracts (h : s.Inv fifo) : s.Extracts s.started := by
  obtain ⟨frames, rest, hframes, hwhole⟩ := h.stream
  have hlater : s.received.flatten.flatten ++ (s.media.queued ++ rest) =
      (frames.map submitVideoDataToStream).flatten := by
    rw [← List.append_assoc, h.bytes, hframes]
  have hextracted := (h.reads frames _ hlater).extracted_eq hlater
  have hlength := congrArg List.length h.bytes
  rw [List.length_append] at hlength
  refine ⟨h.once, fun i hne => ?_, ?_, fun hsettled => ?_⟩
  · by_contra hnot
    cases hst : s.streams[i]? with
    | none =>
        rw [arrivedOn, hst] at hne
        exact hne rfl
    | some st =>
        rw [arrivedOn_eq hst] at hne
        have hk := h.knows i st hst
        cases hvideo : st.video with
        | true => exact hne (MediaStream.arrived_of_read (hk.unstarted hnot hvideo))
        | false => exact hne (MediaStream.arrived_of_frames (hk.sent.frames_eq hvideo))
  · rw [hextracted, packetsOf, ← hwhole]
    exact (whole_mono (by omega)).map VideoReading.packet
  · have hqueued : s.media.queued = [] := by
      rw [TransportMediaStream.queued, hsettled.1, hsettled.2]
      rfl
    rw [hqueued, List.length_nil, Nat.add_zero] at hlength
    rw [hextracted, packetsOf, ← hwhole, hlength]

/-- A decoder that accepts everything. -/
def willing : VideoBrowser where
  decodeQueueSize := fun _ => 0
  throws := fun _ => false

theorem handles_posted (posted : List (List Bytes)) {trace : List MediaStep}
    (hs : (system R Orderly).Run trace s) (hpending : s.media.pendingChunks = [])
    (hposted : s.media.posted = posted) :
    ∃ steps t, (system R Orderly).Run (trace ++ steps) t ∧ t.Settled ∧ t.streams = s.streams ∧
      t.started = s.started := by
  induction posted generalizing s trace with
  | nil => exact ⟨[], s, by rwa [List.append_nil], ⟨hpending, hposted⟩, rfl, rfl⟩
  | cons batch posted ih =>
      have hnext : s.next (.work willing) = some (s.worked willing batch posted) := by
        rw [next, hposted]
        rfl
      have horderly : s.Orderly (.work willing) := fun _ => rfl
      obtain ⟨steps, t, ht, hsettled, hstreams, hstarted⟩ :=
        ih (.next hs ⟨horderly, hnext⟩) hpending rfl
      rw [List.append_assoc] at ht
      exact ⟨_, t, ht, hsettled, hstreams, hstarted⟩

theorem settles (h : s.Inv fifo) {trace : List MediaStep} (hs : (system R Orderly).Run trace s) :
    ∃ steps t, (system R Orderly).Run (trace ++ steps) t ∧ t.Settled ∧ t.streams = s.streams ∧
      t.started = s.started := by
  by_cases hpending : s.media.pendingChunks = []
  · exact handles_posted s.media.posted hs hpending rfl
  · have hnext : s.next .timer =
        some { s with media := s.media.clearFlushTimer.flushPendingChunks } := by
      rw [next, if_pos (h.armed hpending)]
    have horderly : s.Orderly .timer := trivial
    obtain ⟨steps, t, ht, hsettled, hstreams, hstarted⟩ :=
      handles_posted _ (.next hs ⟨horderly, hnext⟩) (TransportMediaStream.flush_spec _).1 rfl
    rw [List.append_assoc] at ht
    exact ⟨_, t, ht, hsettled, hstreams, hstarted⟩

/-- In every run whose steps are in order, wherever its streams end; what has arrived as a whole is
taken off when the worker has handled what was received. -/
theorem frames_extracted (fifo : R.Fifo) {trace : List MediaStep} {s : MediaSession R}
    (hs : (system R Orderly).Run trace s) :
    s.Extracts s.started ∧
      ∃ steps t, (system R Orderly).Run (trace ++ steps) t ∧ t.Settled ∧ t.streams = s.streams ∧
        t.worker.extracted = s.packetsOf s.started := by
  have h : s.Inv fifo := run_inv hs
  obtain ⟨steps, t, ht, hsettled, hstreams, hstarted⟩ := settles h hs
  have ht' : t.Inv fifo := run_inv ht
  refine ⟨h.extracts, steps, t, ht, hsettled, hstreams, (ht'.extracts.all hsettled).trans ?_⟩
  rw [packetsOf, packetsOf, hstarted]
  unfold arrivedOn
  rw [hstreams]

theorem Extracts.mem {order : List Nat} (h : s.Extracts order) (hsettled : s.Settled) {frame : VideoFrame}
    (hframe : frame ∈ s.arrivedOn i) : VideoReading.packet frame ∈ s.worker.extracted := by
  rw [h.all hsettled]
  exact List.mem_map_of_mem (List.mem_flatMap_of_mem (h.every i (List.ne_nil_of_mem hframe)) hframe)

def oneByte (byte : UInt8) : VideoFrame where
  data := [byte]
  isDescription := true
  fits := by
    rw [List.length_singleton]
    decide

/-- The second stream is opened after the first one has ended at the end of a packet. -/
def oneAfterTheOther : List MediaStep :=
  [.sessionReady true true true, .submitVideo (oneByte 1) true true, .chunk 0 7, .ended 0,
    .canCreate true true, .submitVideo (oneByte 2) true true, .chunk 2 7]

/-- What is in order by a look at the streams only. -/
def careful (s : MediaSession R) : MediaStep → Bool
  | .chunk _ _ => s.Free
  | .work _ => false
  | .decoderError => false
  | _ => true

theorem orderly_of_careful {step : MediaStep} (h : s.careful step = true) : s.Orderly step := by
  cases step with
  | chunk i length => exact fun _ _ _ _ _ => of_decide_eq_true h
  | work browser => cases h
  | decoderError => cases h
  | _ => trivial

theorem frames_extracted_oneAfterTheOther :
    ∃ s : MediaSession (QueueRing.ringBuffer Bytes), (system _ Orderly).Run oneAfterTheOther s ∧
      (s.packetsOf s.started).map Prod.snd = [[1], [2]] ∧
      ∃ steps t, (system (QueueRing.ringBuffer Bytes) Orderly).Run (oneAfterTheOther ++ steps) t ∧
        t.Settled ∧ t.worker.extracted.map Prod.snd = [[1], [2]] := by
  have hend : ((Labelled.follow next (fun s step => s.careful step = true) oneAfterTheOther
      (start (QueueRing.ringBuffer Bytes))).map fun s => (s.packetsOf s.started).map Prod.snd) =
        some [[1], [2]] := by decide
  obtain ⟨s, hs, hpackets⟩ := Option.map_eq_some_iff.mp hend
  have hrun : (system _ Orderly).Run oneAfterTheOther s :=
    Labelled.Run.follow (.start rfl) (fun s step t hcareful hnext => ⟨orderly_of_careful hcareful, hnext⟩) hs
  obtain ⟨_, steps, t, ht, hsettled, _, hextracted⟩ := frames_extracted (QueueRing.fifo Bytes) hrun
  exact ⟨s, hrun, hpackets, steps, t, ht, hsettled, by rw [hextracted, hpackets]⟩

/-- The server opens its streams again while the client reads the first one. -/
def openedAgain : List MediaStep :=
  [.sessionReady true true true, .submitVideo (oneByte 1) true true, .canCreate true true,
    .submitVideo (oneByte 2) true true, .chunk 0 7, .chunk 2 7, .timer, .work willing]

/-- The first stream ends within a packet. -/
def endedWithin : List MediaStep :=
  [.sessionReady true true true, .submitVideo (oneByte 1) true true, .chunk 0 3, .ended 0,
    .canCreate true true, .submitVideo (oneByte 2) true true, .chunk 2 7, .ended 2, .work willing,
    .work willing]

theorem not_extracts {order : List Nat} (hsettled : s.Settled)
    (harrived : (s.arrivedOn 2).map VideoFrame.data = [[2]])
    (hextracted : [2] ∉ s.worker.extracted.map Prod.snd) : ¬ s.Extracts order := by
  intro h
  obtain ⟨frame, hframe, hdata⟩ := List.mem_map.mp (harrived ▸ List.mem_cons_self)
  exact hextracted (List.mem_map.mpr ⟨_, h.mem hsettled hframe, hdata⟩)

/-- The reader of the second stream is cancelled with the frame that it has brought; in the other
run the bytes of the packet that was cut off are taken for the beginning of the next one. -/
theorem frames_not_extracted :
    (∃ s : MediaSession (QueueRing.ringBuffer Bytes), (system _ fun _ _ => True).Run openedAgain s ∧
      s.Settled ∧ (s.arrivedOn 2).map VideoFrame.data = [[2]] ∧
      s.worker.extracted.map Prod.snd = [[1]] ∧ ∀ order, ¬ s.Extracts order) ∧
    ∃ s : MediaSession (QueueRing.ringBuffer Bytes), (system _ fun _ _ => True).Run endedWithin s ∧
      s.Settled ∧ (s.arrivedOn 2).map VideoFrame.data = [[2]] ∧
      s.worker.extracted.map Prod.snd = [] ∧ ∀ order, ¬ s.Extracts order := by
  have hend : ∀ (trace : List MediaStep) (extracted : List Bytes), [2] ∉ extracted →
      ((Labelled.follow next (fun _ _ => True) trace (start (QueueRing.ringBuffer Bytes))).map fun s =>
        (s.media.pendingChunks, s.media.posted, (s.arrivedOn 2).map VideoFrame.data,
          s.worker.extracted.map Prod.snd)) = some ([], [], [[2]], extracted) →
      ∃ s : MediaSession (QueueRing.ringBuffer Bytes), (system _ fun _ _ => True).Run trace s ∧
        s.Settled ∧ (s.arrivedOn 2).map VideoFrame.data = [[2]] ∧
        s.worker.extracted.map Prod.snd = extracted ∧ ∀ order, ¬ s.Extracts order := by
    intro trace extracted hnot hfollow
    obtain ⟨s, hs, hresult⟩ := Labelled.exists_run hfollow
    simp only [Prod.mk.injEq] at hresult
    obtain ⟨hpending, hposted, harrived, hextracted⟩ := hresult
    exact ⟨s, hs, ⟨hpending, hposted⟩, harrived, hextracted, fun order =>
      not_extracts ⟨hpending, hposted⟩ harrived (hextracted ▸ hnot)⟩
  exact ⟨hend _ _ (by decide) (by decide), hend _ _ (by decide) (by decide +kernel)⟩

end MediaSession

end Stratus.Frontend
