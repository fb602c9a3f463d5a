import Stratus.Frontend.ConsecutiveStreams
import Mathlib.Data.List.TakeWhile

/-! `Transport.cpp`: the thread takes the frames of the encoders off their queues and submits them to
the one client there is.  Every frame that is not dropped before there is a client is written once,
in order, and comes to the worker of the client so. -/
namespace Stratus.Transport

open Stratus.Lib Stratus.Frontend

variable {R : RingBuffer Bytes}

/-- A queue between an encoder and the thread, and what the thread has done with its frames. -/
structure Lane (φ : Type) where
  queue : List φ
  dropped : List φ
  sent : List φ

namespace Lane

variable {φ : Type}

def empty : Lane φ := ⟨[], [], []⟩

/-- `rbuf_push`, which fails when the queue is full. -/
def push (lane : Lane φ) (capacity : Nat) (frame : φ) : Option (Lane φ) :=
  if lane.queue.length < capacity then some { lane with queue := lane.queue ++ [frame] } else none

/-- `rbuf_pop` of a frame for which there is no client. -/
def drop (lane : Lane φ) (frame : φ) : Lane φ :=
  { lane with queue := lane.queue.tail, dropped := lane.dropped ++ [frame] }

/-- `rbuf_pop` of a frame that has been written; it stays when it has not. -/
def submitted (lane : Lane φ) (frame : φ) (ok : Bool) : Lane φ :=
  if ok then { lane with queue := lane.queue.tail, sent := lane.sent ++ [frame] } else lane

end Lane

/-- The capacities that `session.c` gives the queues. -/
def videoQueueCapacity : Nat := 4

def audioQueueCapacity : Nat := 64

/-- `connected` is a `WebTransportSession` that is not `NULL`. -/
structure TransportSession (R : RingBuffer Bytes) where
  isSessionActive : Bool
  isThreadActive : Bool
  connected : Bool
  video : Lane VideoFrame
  audio : Lane AudioFrame
  session : MediaSession R

/-- What a stream answers to `CanWrite` and to `Writev`. -/
structure WriteAnswer where
  canWrite : Bool
  ok : Bool

/-- A request for a connection and the closing of the session come from a client, and `media` is
whatever else happens to the session. -/
inductive TransportEvent where
  | pushVideo (frame : VideoFrame)
  | pushAudio (frame : AudioFrame)
  | request
  | sessionClosed
  | stop
  | iteration (video audio : WriteAnswer)
  | media (step : MediaStep)

/-- Only the thread does this. -/
def submits : MediaStep → Bool
  | .submitVideo .. => true
  | .submitAudio .. => true
  | _ => false

/-- Whether a frame is reported as written. -/
def submitOk (stream : Option Nat) (answer : WriteAnswer) : Bool :=
  stream.isSome && (answer.canWrite && answer.ok)

namespace TransportSession

def start (R : RingBuffer Bytes) : TransportSession R where
  isSessionActive := true
  isThreadActive := true
  connected := false
  video := .empty
  audio := .empty
  session := .start R

/-- The first half of the loop in `transport_thread`. -/
def takeVideo (s : TransportSession R) (answer : WriteAnswer) : TransportSession R :=
  match s.video.queue with
  | [] => s
  | frame :: _ =>
      if s.connected then
        { s with
          session := s.session.submit s.session.videoStream [frame] (submitVideoDataToStream frame)
            answer.canWrite answer.ok
          video := s.video.submitted frame (submitOk s.session.videoStream answer) }
      else { s with video := s.video.drop frame }

/-- The second half. -/
def takeAudio (s : TransportSession R) (answer : WriteAnswer) : TransportSession R :=
  match s.audio.queue with
  | [] => s
  | frame :: _ =>
      if s.connected then
        { s with
          session := s.session.submit s.session.audioStream [] (submitAudioDataToStream frame)
            answer.canWrite answer.ok
          audio := s.audio.submitted frame (submitOk s.session.audioStream answer) }
      else { s with audio := s.audio.drop frame }

/-- `ProcessRequest` rejects a second client. -/
def next (s : TransportSession R) : TransportEvent → Option (TransportSession R)
  | .pushVideo frame => (s.video.push videoQueueCapacity frame).map fun video => { s with video := video }
  | .pushAudio frame => (s.audio.push audioQueueCapacity frame).map fun audio => { s with audio := audio }
  | .request => some (if s.connected then s else { s with connected := true })
  | .sessionClosed => if s.connected then some { s with isThreadActive := false } else none
  | .stop => some { s with isSessionActive := false }
  | .iteration video audio =>
      if s.isSessionActive && s.isThreadActive then some ((s.takeVideo video).takeAudio audio) else none
  | .media step =>
      if s.connected && !submits step then
        (s.session.next step).map fun session => { s with session := session }
      else none

/-- The runs in which each step of the session is allowed. -/
def system (R : RingBuffer Bytes) (allowed : MediaSession R → MediaStep → Prop) :
    Labelled (TransportSession R) TransportEvent where
  init s := s = start R
  step s event t := (∀ step, event = .media step → allowed s.session step) ∧ s.next event = some t

end TransportSession

/-! ## What the encoders have pushed -/

def TransportEvent.video? : TransportEvent → Option VideoFrame
  | .pushVideo frame => some frame
  | _ => none

def TransportEvent.audio? : TransportEvent → Option AudioFrame
  | .pushAudio frame => some frame
  | _ => none

def TransportEvent.isRequest : TransportEvent → Bool
  | .request => true
  | _ => false

/-- The events before there was a client. -/
def early (trace : List TransportEvent) : List TransportEvent := trace.takeWhile fun event => !event.isRequest

/-! ## What the server has written -/

/-- What the server knows of a stream. -/
abbrev Side := Bool × List VideoFrame × Bytes

def side (st : MediaStream) : Side := (st.video, st.frames, st.written)

def sides (s : MediaSession R) : List Side := s.streams.map side

/-- Something of the streams of one kind, one stream after the other. -/
def shown {β : Type} (video : Bool) (f : List VideoFrame × Bytes → List β) (all : List Side) : List β :=
  all.flatMap fun one => if one.1 = video then f one.2 else []

/-- What has been written on the streams of one kind, stream by stream. -/
def bytesOf (video : Bool) (all : List Side) : List Bytes :=
  (all.filter fun one => one.1 = video).map fun one => one.2.2

/-- Each stream has some of the frames, as one packet for each. -/
def Packets {φ : Type} (encode : φ → Bytes) (streams : List Bytes) (frames : List φ) : Prop :=
  ∃ parts : List (List φ), parts.flatten = frames ∧
    streams = parts.map fun part => (part.map encode).flatten

/-- No stream of the kind has been opened after this one. -/
def Newest (video : Bool) (stream : Option Nat) (kinds : List Bool) : Prop :=
  ∀ i, stream = some i →
    ∃ before after, kinds = before ++ video :: after ∧ before.length = i ∧ video ∉ after

def writeSide (frames : List VideoFrame) (packet : Bytes) (one : Side) : Side :=
  (one.1, one.2.1 ++ frames, one.2.2 ++ packet)

section Sides

variable {all : List Side} {video : Bool} {i : Nat} {β : Type} {f : List VideoFrame × Bytes → List β}
  {frames : List VideoFrame} {packet : Bytes}

theorem shown_append (video : Bool) (f : List VideoFrame × Bytes → List β) (all more : List Side) :
    shown video f (all ++ more) = shown video f all ++ shown video f more :=
  List.flatMap_append

theorem shown_cons (video : Bool) (f : List VideoFrame × Bytes → List β) (one : Side) (more : List Side) :
    shown video f (one :: more) = (if one.1 = video then f one.2 else []) ++ shown video f more :=
  List.flatMap_cons

theorem shown_others (h : ∀ one ∈ all, one.1 ≠ video) : shown video f all = [] :=
  List.flatMap_eq_nil_iff.mpr fun one hmem => if_neg (h one hmem)

theorem Newest.split (h : Newest video (some i) (all.map Prod.fst)) : ∃ before one after,
    all = before ++ one :: after ∧ before.length = i ∧ one.1 = video ∧ ∀ other ∈ after, other.1 ≠ video := by
  obtain ⟨kinds, later, hkinds, hlength, hlater⟩ := h i rfl
  obtain ⟨before, rest, rfl, rfl, hrest⟩ := List.map_eq_append_iff.mp hkinds
  obtain ⟨one, after, rfl, rfl, rfl⟩ := List.map_eq_cons_iff.mp hrest
  rw [List.length_map] at hlength
  exact ⟨before, one, after, rfl, hlength, rfl, fun other hmem heq =>
    hlater (heq ▸ List.mem_map_of_mem hmem)⟩

theorem modify_split (before after : List Side) (one : Side) (g : Side → Side) :
    (before ++ one :: after).modify before.length g = before ++ g one :: after := by
  induction before with
  | nil => rfl
  | cons first before ih => exact congrArg (List.cons first) ih

/-- A write on the newest stream of a kind comes last. -/
theorem shown_write {more : List β} (hnewest : Newest video (some i) (all.map Prod.fst))
    (hf : ∀ old, f (old.1 ++ frames, old.2 ++ packet) = f old ++ more) :
    shown video f (all.modify i (writeSide frames packet)) = shown video f all ++ more := by
  obtain ⟨before, one, after, rfl, rfl, hkind, hafter⟩ := hnewest.split
  have hone : shown video f (writeSide frames packet one :: after) = f one.2 ++ more := by
    rw [shown_cons, shown_others hafter, List.append_nil, ← hf]
    exact if_pos hkind
  rw [modify_split, shown_append, shown_append, hone, shown_cons, shown_others hafter, List.append_nil,
    if_pos hkind, List.append_assoc]

/-- A write on a stream of the other kind is not seen. -/
theorem shown_write_other (hnewest : Newest (!video) (some i) (all.map Prod.fst)) :
    shown video f (all.modify i (writeSide frames packet)) = shown video f all := by
  obtain ⟨before, one, after, rfl, rfl, hkind, -⟩ := hnewest.split
  have hne : one.1 ≠ video := by
    rw [hkind]
    exact Bool.not_ne_self video
  have hwritten : (writeSide frames packet one).1 ≠ video := hne
  rw [modify_split, shown_append, shown_append, shown_cons, shown_cons, if_neg hne, if_neg hwritten]

theorem bytesOf_append (video : Bool) (all more : List Side) :
    bytesOf video (all ++ more) = bytesOf video all ++ bytesOf video more := by
  rw [bytesOf, List.filter_append, List.map_append]
  rfl

theorem bytesOf_others (h : ∀ one ∈ all, one.1 ≠ video) : bytesOf video all = [] := by
  rw [bytesOf, List.filter_eq_nil_iff.mpr fun one hmem htrue => h one hmem (of_decide_eq_true htrue)]
  rfl

theorem bytesOf_cons_self {one : Side} (h : one.1 = video) (all : List Side) :
    bytesOf video (one :: all) = one.2.2 :: bytesOf video all := by
  rw [bytesOf, List.filter_cons, if_pos (decide_eq_true h)]
  rfl

theorem bytesOf_cons_other {one : Side} (h : one.1 ≠ video) (all : List Side) :
    bytesOf video (one :: all) = bytesOf video all := by
  rw [bytesOf, List.filter_cons, if_neg fun htrue => h (of_decide_eq_true htrue)]
  rfl

/-- A write on the newest stream of a kind adds to the last one. -/
theorem bytesOf_write (frames : List VideoFrame) (packet : Bytes)
    (hnewest : Newest video (some i) (all.map Prod.fst)) :
    ∃ streams bytes, bytesOf video all = streams ++ [bytes] ∧
      bytesOf video (all.modify i (writeSide frames packet)) = streams ++ [bytes ++ packet] := by
  obtain ⟨before, one, after, rfl, rfl, hkind, hafter⟩ := hnewest.split
  have hwritten : (writeSide frames packet one).1 = video := hkind
  refine ⟨bytesOf video before, one.2.2, ?_, ?_⟩
  · rw [bytesOf_append, bytesOf_cons_self hkind, bytesOf_others hafter]
  · rw [modify_split, bytesOf_append, bytesOf_cons_self hwritten, bytesOf_others hafter]
    rfl

theorem bytesOf_write_other (hnewest : Newest (!video) (some i) (all.map Prod.fst)) :
    bytesOf video (all.modify i (writeSide frames packet)) = bytesOf video all := by
  obtain ⟨before, one, after, rfl, rfl, hkind, -⟩ := hnewest.split
  have hne : one.1 ≠ video := by
    rw [hkind]
    exact Bool.not_ne_self video
  have hwritten : (writeSide frames packet one).1 ≠ video := hne
  rw [modify_split, bytesOf_append, bytesOf_append, bytesOf_cons_other hne, bytesOf_cons_other hwritten]

theorem Packets.snoc {φ : Type} {encode : φ → Bytes} {streams : List Bytes} {bytes : Bytes}
    {sent : List φ} (h : Packets encode (streams ++ [bytes]) sent) (frame : φ) :
    Packets encode (streams ++ [bytes ++ encode frame]) (sent ++ [frame]) := by
  obtain ⟨parts, rfl, hparts⟩ := h
  obtain ⟨parts, last, rfl, rfl, hlast⟩ := List.map_eq_append_iff.mp hparts.symm
  obtain ⟨part, rfl, rfl⟩ := List.map_eq_singleton_iff.mp hlast
  refine ⟨parts ++ [part ++ [frame]], ?_, ?_⟩
  · simp only [List.flatten_append, List.flatten_singleton, List.append_assoc]
  · simp only [List.map_append, List.map_singleton, List.flatten_append, List.flatten_singleton]

theorem Packets.opened {φ : Type} {encode : φ → Bytes} {streams more : List Bytes} {sent : List φ}
    (h : Packets encode streams sent) (hmore : ∀ bytes ∈ more, bytes = []) :
    Packets encode (streams ++ more) sent := by
  obtain ⟨parts, rfl, rfl⟩ := h
  have hnone : more = (List.replicate more.length ([] : List φ)).map fun part =>
      (part.map encode).flatten := by
    rw [List.map_replicate]
    exact List.eq_replicate_iff.mpr ⟨rfl, hmore⟩
  refine ⟨parts ++ List.replicate more.length [], ?_, ?_⟩
  · rw [List.flatten_append, List.flatten_replicate_nil, List.append_nil]
  · rw [List.map_append, ← hnone]

theorem map_modify {α γ : Type} (h : α → γ) (g : α → α) (g' : γ → γ) (hg : ∀ a, h (g a) = g' (h a))
    (l : List α) (i : Nat) : (l.modify i g).map h = (l.map h).modify i g' := by
  induction l generalizing i with
  | nil => rw [List.modify_nil, List.map_nil, List.modify_nil]
  | cons a l ih =>
      cases i with
      | zero => exact congrArg (· :: l.map h) (hg a)
      | succ i => exact congrArg (List.cons (h a)) (ih i)

theorem map_fst_write (frames : List VideoFrame) (packet : Bytes) (all : List Side) (i : Nat) :
    (all.modify i (writeSide frames packet)).map Prod.fst = all.map Prod.fst := by
  rw [map_modify Prod.fst (writeSide frames packet) id (fun _ => rfl), List.modify_id]

end Sides

/-! ## Sessions -/

/-- What is known of the streams when these frames have been written. -/
structure Written (s : MediaSession R) (videos : List VideoFrame) (audios : List AudioFrame) : Prop where
  videoStream : Newest true s.videoStream ((sides s).map Prod.fst)
  audioStream : Newest false s.audioStream ((sides s).map Prod.fst)
  frames : shown true Prod.fst (sides s) = videos
  videoPackets : Packets submitVideoDataToStream (bytesOf true (sides s)) videos
  audioPackets : Packets submitAudioDataToStream (bytesOf false (sides s)) audios

variable {s t : MediaSession R} {videos : List VideoFrame} {audios : List AudioFrame}

theorem Written.of_same (h : Written s videos audios) (hsides : sides t = sides s)
    (hvideo : t.videoStream = s.videoStream) (haudio : t.audioStream = s.audioStream) :
    Written t videos audios where
  videoStream := hsides ▸ hvideo ▸ h.videoStream
  audioStream := hsides ▸ haudio ▸ h.audioStream
  frames := hsides ▸ h.frames
  videoPackets := hsides ▸ h.videoPackets
  audioPackets := hsides ▸ h.audioPackets

theorem Written.start : Written (.start R) [] [] where
  videoStream i hi := by cases hi
  audioStream i hi := by cases hi
  frames := rfl
  videoPackets := ⟨[], rfl, rfl⟩
  audioPackets := ⟨[], rfl, rfl⟩

/-- A frame is reported as written when it has been. -/
theorem submit_spec (s : MediaSession R) (stream : Option Nat) (frames : List VideoFrame)
    (packet : Bytes) (answer : WriteAnswer) :
    (submitOk stream answer = false ∧ s.submit stream frames packet answer.canWrite answer.ok = s) ∨
      submitOk stream answer = true ∧ ∃ i, stream = some i ∧
        s.submit stream frames packet answer.canWrite answer.ok =
          { s with streams := s.streams.modify i (·.write frames packet) } := by
  cases stream with
  | none => exact .inl ⟨rfl, rfl⟩
  | some i =>
      rw [MediaSession.submit, submitOk]
      cases answer.canWrite && answer.ok with
      | false => exact .inl ⟨rfl, rfl⟩
      | true => exact .inr ⟨rfl, i, rfl, rfl⟩

theorem sides_write (s : MediaSession R) (i : Nat) (frames : List VideoFrame) (packet : Bytes) :
    sides { s with streams := s.streams.modify i (·.write frames packet) } =
      (sides s).modify i (writeSide frames packet) :=
  map_modify side (·.write frames packet) (writeSide frames packet) (fun _ => rfl) s.streams i

theorem Written.writeVideo (h : Written s videos audios) {i : Nat} (hi : s.videoStream = some i)
    (frame : VideoFrame) :
    Written { s with streams := s.streams.modify i (·.write [frame] (submitVideoDataToStream frame)) }
      (videos ++ [frame]) audios := by
  have hnewest := hi ▸ h.videoStream
  have hsides := sides_write s i [frame] (submitVideoDataToStream frame)
  have hkinds := map_fst_write [frame] (submitVideoDataToStream frame) (sides s) i
  refine ⟨?_, ?_, ?_, ?_, ?_⟩
  · rw [hsides, hkinds]
    exact h.videoStream
  · rw [hsides, hkinds]
    exact h.audioStream
  · rw [hsides, shown_write hnewest fun _ => rfl, h.frames]
  · obtain ⟨streams, bytes, hbefore, hafter⟩ := bytesOf_write [frame]
      (submitVideoDataToStream frame) hnewest
    have hpackets := h.videoPackets
    rw [hbefore] at hpackets
    rw [hsides, hafter]
    exact hpackets.snoc frame
  · rw [hsides, (bytesOf_write_other hnewest : bytesOf false _ = bytesOf false _)]
    exact h.audioPackets

theorem Written.writeAudio (h : Written s videos audios) {i : Nat} (hi : s.audioStream = some i)
    (frame : AudioFrame) :
    Written { s with streams := s.streams.modify i (·.write [] (submitAudioDataToStream frame)) }
      videos (audios ++ [frame]) := by
  have hnewest := hi ▸ h.audioStream
  have hsides := sides_write s i [] (submitAudioDataToStream frame)
  have hkinds := map_fst_write [] (submitAudioDataToStream frame) (sides s) i
  refine ⟨?_, ?_, ?_, ?_, ?_⟩
  · rw [hsides, hkinds]
    exact h.videoStream
  · rw [hsides, hkinds]
    exact h.audioStream
  · rw [hsides, (shown_write_other hnewest : shown true _ _ = shown true _ _)]
    exact h.frames
  · rw [hsides, (bytesOf_write_other hnewest : bytesOf true _ = bytesOf true _)]
    exact h.videoPackets
  · obtain ⟨streams, bytes, hbefore, hafter⟩ := bytesOf_write []
      (submitAudioDataToStream frame) hnewest
    have hpackets := h.audioPackets
    rw [hbefore] at hpackets
    rw [hsides, hafter]
    exact hpackets.snoc frame

/-- Streams on which nothing has been written. -/
def openedSides (video credit : Bool) : List Side := if credit then [(video, [], [])] else []

theorem sides_open (streams : List MediaStream) (video credit : Bool) :
    (openOutgoingUnidirectionalStream streams video credit).1.map side =
      streams.map side ++ openedSides video credit := by
  cases credit with
  | false => exact (List.append_nil _).symm
  | true => exact List.map_append

theorem Newest.append {stream : Option Nat} {kinds more : List Bool} {video : Bool}
    (h : Newest video stream kinds) (hmore : video ∉ more) : Newest video stream (kinds ++ more) := by
  intro i hi
  obtain ⟨before, after, rfl, hlength, hafter⟩ := h i hi
  exact ⟨before, after ++ more, List.append_assoc _ _ _, hlength, fun hmem =>
    (List.mem_append.mp hmem).elim hafter hmore⟩

theorem newest_open (streams : List MediaStream) (video credit : Bool) :
    Newest video (openOutgoingUnidirectionalStream streams video credit).2
      ((streams.map side ++ openedSides video credit).map Prod.fst) := by
  cases credit with
  | false =>
      intro i hi
      cases hi
  | true =>
      intro i hi
      cases hi
      refine ⟨(streams.map side).map Prod.fst, [], List.map_append, ?_, List.not_mem_nil⟩
      rw [List.length_map, List.length_map]

theorem shown_opened {β : Type} {video : Bool} {f : List VideoFrame × Bytes → List β} (hf : f ([], []) = [])
    (kind credit : Bool) : shown video f (openedSides kind credit) = [] := by
  cases credit with
  | false => rfl
  | true =>
      rw [openedSides, if_pos rfl, shown_cons, hf, ite_self]
      rfl

theorem bytesOf_opened (video kind credit : Bool) :
    ∀ bytes ∈ bytesOf video (openedSides kind credit), bytes = [] := by
  intro bytes hmem
  obtain ⟨one, hone, rfl⟩ := List.mem_map.mp hmem
  cases credit with
  | false => cases hone
  | true => rw [List.mem_singleton.mp (List.mem_filter.mp hone).1]

theorem sides_canCreate (s : MediaSession R) (videoCredit audioCredit : Bool) :
    sides (s.onCanCreateNewOutgoingUnidirectionalStream videoCredit audioCredit) =
      sides s ++ openedSides true videoCredit ++ openedSides false audioCredit := by
  have hvideo := sides_open s.streams true videoCredit
  have haudio := sides_open (openOutgoingUnidirectionalStream s.streams true videoCredit).1 false audioCredit
  rw [sides, MediaSession.onCanCreateNewOutgoingUnidirectionalStream, haudio, hvideo]
  rfl

theorem Written.canCreate (h : Written s videos audios) (videoCredit audioCredit : Bool) :
    Written (s.onCanCreateNewOutgoingUnidirectionalStream videoCredit audioCredit) videos audios := by
  have hvideo := sides_open s.streams true videoCredit
  have hall := sides_canCreate s videoCredit audioCredit
  refine ⟨?_, ?_, ?_, ?_, ?_⟩
  · rw [hall, List.map_append]
    refine (newest_open s.streams true videoCredit).append ?_
    cases audioCredit <;> decide
  · rw [hall]
    have hnewest :=
      newest_open (openOutgoingUnidirectionalStream s.streams true videoCredit).1 false audioCredit
    rwa [hvideo] at hnewest
  · rw [hall, shown_append, shown_append, shown_opened rfl, shown_opened rfl, List.append_nil,
      List.append_nil]
    exact h.frames
  · rw [hall, bytesOf_append, bytesOf_append]
    exact (h.videoPackets.opened (bytesOf_opened true true videoCredit)).opened
      (bytesOf_opened true false audioCredit)
  · rw [hall, bytesOf_append, bytesOf_append]
    exact (h.audioPackets.opened (bytesOf_opened false true videoCredit)).opened
      (bytesOf_opened false false audioCredit)

/-! The client does nothing to what the server knows. -/

def Same (s t : MediaSession R) : Prop :=
  sides t = sides s ∧ t.videoStream = s.videoStream ∧ t.audioStream = s.audioStream

theorem sides_set {i : Nat} {st st' : MediaStream} (hst : s.streams[i]? = some st)
    (hside : side st' = side st) : (s.streams.set i st').map side = s.streams.map side := by
  obtain ⟨hlt, rfl⟩ := List.getElem?_eq_some_iff.mp hst
  have hlt' : i < (s.streams.map side).length := by rwa [List.length_map]
  have hget : side s.streams[i] = (s.streams.map side)[i] := (List.getElem_map side).symm
  rw [List.map_set, hside, hget, List.set_getElem_self]

/-- Of the streams only this one has changed, and only for the client. -/
def Changes (s t : MediaSession R) (i : Nat) (st : MediaStream) : Prop :=
  (∃ st', t.streams = s.streams.set i st' ∧ side st' = side st ∧ st'.read = st.read) ∧
    t.videoStream = s.videoStream ∧ t.audioStream = s.audioStream

theorem Changes.same {i : Nat} {st st' : MediaStream} (h : Changes s t i st') (hst : s.streams[i]? = some st)
    (hside : side st' = side st) : Same s t := by
  obtain ⟨⟨st'', hstreams, hside', -⟩, hvideo, haudio⟩ := h
  refine ⟨?_, hvideo, haudio⟩
  rw [sides, hstreams]
  exact sides_set hst (hside'.trans hside)

theorem startVideo_changes (s : MediaSession R) (i : Nat) (st : MediaStream) (value : Bytes) :
    Changes s (s.startVideo i st value) i st := by
  unfold MediaSession.startVideo
  cases s.media.reader with
  | none => exact ⟨⟨_, rfl, rfl, rfl⟩, rfl, rfl⟩
  | some j => exact ⟨⟨_, rfl, rfl, rfl⟩, rfl, rfl⟩

theorem receiveChunk_changes {i : Nat} {st : MediaStream} {value : Bytes}
    (hreceive : s.receiveChunk i st value = some t) : Changes s t i st := by
  unfold MediaSession.receiveChunk at hreceive
  cases hreader : st.reader with
  | routing =>
      rw [hreader] at hreceive
      by_cases hempty : value = []
      · rw [if_pos hempty] at hreceive
        cases hreceive
        exact ⟨⟨st, rfl, rfl, rfl⟩, rfl, rfl⟩
      · rw [if_neg hempty] at hreceive
        cases hroute : routeIncomingStream value with
        | none =>
            rw [hroute] at hreceive
            cases hreceive
            exact ⟨⟨_, rfl, rfl, rfl⟩, rfl, rfl⟩
        | some kind =>
            rw [hroute] at hreceive
            cases kind with
            | video =>
                cases hreceive
                exact startVideo_changes s i st value
            | audio =>
                cases hreceive
                exact ⟨⟨_, rfl, rfl, rfl⟩, rfl, rfl⟩
  | video | audio =>
      rw [hreader] at hreceive
      cases hreceive
      exact ⟨⟨st, rfl, rfl, rfl⟩, rfl, rfl⟩
  | cancelled | closed =>
      rw [hreader] at hreceive
      cases hreceive

theorem streamEnded_same {i : Nat} {st : MediaStream} (hst : s.streams[i]? = some st)
    (hended : s.streamEnded i st = some t) : Same s t := by
  unfold MediaSession.streamEnded at hended
  cases hreader : st.reader with
  | routing | video | audio =>
      rw [hreader] at hended
      cases hended
      exact ⟨sides_set hst rfl, rfl, rfl⟩
  | cancelled | closed =>
      rw [hreader] at hended
      cases hended

/-- What the server knows changes only when streams are opened. -/
theorem next_sides {step : MediaStep} (hstep : submits step = false) (hnext : s.next step = some t) :
    Same s t ∨ ∃ s' videoCredit audioCredit, Same s s' ∧
      t = s'.onCanCreateNewOutgoingUnidirectionalStream videoCredit audioCredit := by
  cases step with
  | sessionReady canOpen videoCredit audioCredit =>
      rw [MediaSession.next] at hnext
      split at hnext
      · cases hnext
      · cases hnext
        rw [MediaSession.onSessionReady]
        split
        · exact .inr ⟨{ s with ready := true }, videoCredit, audioCredit, ⟨rfl, rfl, rfl⟩, rfl⟩
        · exact .inl ⟨rfl, rfl, rfl⟩
  | canCreate videoCredit audioCredit =>
      cases hnext
      exact .inr ⟨s, videoCredit, audioCredit, ⟨rfl, rfl, rfl⟩, rfl⟩
  | submitVideo | submitAudio => cases hstep
  | chunk i length =>
      obtain ⟨st, hst, hnext⟩ := Option.bind_eq_some_iff.mp hnext
      obtain ⟨⟨value, st'⟩, hread, hreceive⟩ := Option.bind_eq_some_iff.mp hnext
      obtain ⟨⟨hle, rfl⟩, -⟩ := MediaStream.readChunk_spec hread
      have hside : side { st with read := st.read + length, read_le := hle } = side st := rfl
      exact .inl ((receiveChunk_changes hreceive).same hst hside)
  | ended i =>
      obtain ⟨st, hst, hended⟩ := Option.bind_eq_some_iff.mp hnext
      exact .inl (streamEnded_same hst hended)
  | timer =>
      rw [MediaSession.next] at hnext
      split at hnext
      · cases hnext
        exact .inl ⟨rfl, rfl, rfl⟩
      · cases hnext
  | work browser =>
      rw [MediaSession.next] at hnext
      cases hposted : s.media.posted with
      | nil =>
          rw [hposted] at hnext
          cases hnext
      | cons batch posted =>
          rw [hposted] at hnext
          cases hnext
          exact .inl ⟨rfl, rfl, rfl⟩
  | decoderError =>
      rw [MediaSession.next] at hnext
      split at hnext
      · cases hnext
        exact .inl ⟨rfl, rfl, rfl⟩
      · cases hnext

theorem Written.next (h : Written s videos audios) {step : MediaStep} (hstep : submits step = false)
    (hnext : s.next step = some t) : Written t videos audios := by
  rcases next_sides hstep hnext with hsame | ⟨s', videoCredit, audioCredit, hsame, rfl⟩
  · exact h.of_same hsame.1 hsame.2.1 hsame.2.2
  · exact (h.of_same hsame.1 hsame.2.1 hsame.2.2).canCreate videoCredit audioCredit

/-! ## The thread -/

/-- Where the frames are that have been pushed; those in `before` were pushed when there was no
client. -/
structure Lane.Holds {φ : Type} (lane : Lane φ) (capacity : Nat) (pushed before : List φ) : Prop where
  all : lane.dropped ++ lane.sent ++ lane.queue = pushed
  early : lane.dropped <+: before
  bounded : lane.queue.length ≤ capacity

theorem Lane.push_sent {φ : Type} {lane lane' : Lane φ} {capacity : Nat} {frame : φ}
    (hpush : lane.push capacity frame = some lane') : lane'.sent = lane.sent := by
  rw [Lane.push] at hpush
  split at hpush <;> cases hpush
  rfl

namespace Lane.Holds

variable {φ : Type} {lane lane' : Lane φ} {capacity : Nat} {pushed before : List φ} {frame : φ}
  {queue : List φ}

theorem mono {later : List φ} (h : lane.Holds capacity pushed before) (hsofar : before <+: later) :
    lane.Holds capacity pushed later :=
  ⟨h.all, h.early.trans hsofar, h.bounded⟩

theorem push (h : lane.Holds capacity pushed before) (hpush : lane.push capacity frame = some lane') :
    lane'.Holds capacity (pushed ++ [frame]) before := by
  rw [Lane.push] at hpush
  split at hpush
  · next hroom =>
    cases hpush
    refine ⟨?_, h.early, ?_⟩
    · rw [← h.all, List.append_assoc _ lane.queue]
    · rw [List.length_append]
      exact hroom
  · cases hpush

theorem submitted (h : lane.Holds capacity pushed before) (hqueue : lane.queue = frame :: queue) (ok : Bool) :
    (lane.submitted frame ok).Holds capacity pushed before := by
  cases ok with
  | false => exact h
  | true =>
      have hall := h.all
      have hbounded := h.bounded
      rw [hqueue] at hall hbounded
      refine ⟨?_, h.early, ?_⟩
      · show lane.dropped ++ (lane.sent ++ [frame]) ++ lane.queue.tail = _
        rw [hqueue, List.tail_cons, ← hall, List.append_assoc, List.append_assoc, List.append_assoc]
        rfl
      · show lane.queue.tail.length ≤ _
        rw [hqueue]
        exact Nat.le_of_succ_le hbounded

/-- What is dropped was pushed when there was no client, as there is none now. -/
theorem drop (h : lane.Holds capacity pushed pushed) (hsent : lane.sent = [])
    (hqueue : lane.queue = frame :: queue) : (lane.drop frame).Holds capacity pushed pushed := by
  have hall := h.all
  have hbounded := h.bounded
  rw [hqueue, hsent, List.append_nil] at hall
  rw [hqueue] at hbounded
  have hsplit : lane.dropped ++ [frame] ++ queue = pushed := by
    rw [List.append_assoc]
    exact hall
  refine ⟨?_, ⟨queue, hsplit⟩, ?_⟩
  · show lane.dropped ++ [frame] ++ lane.sent ++ lane.queue.tail = _
    rw [hqueue, hsent, List.append_nil]
    exact hsplit
  · show lane.queue.tail.length ≤ _
    rw [hqueue]
    exact Nat.le_of_succ_le hbounded

end Lane.Holds

namespace TransportSession

variable {s t : TransportSession R} {trace : List TransportEvent}

structure Inv (trace : List TransportEvent) (s : TransportSession R) : Prop where
  connected : s.connected = trace.any TransportEvent.isRequest
  alone : s.connected = false → s.session = .start R ∧ s.video.sent = [] ∧ s.audio.sent = []
  video : s.video.Holds videoQueueCapacity (trace.filterMap TransportEvent.video?)
    ((early trace).filterMap TransportEvent.video?)
  audio : s.audio.Holds audioQueueCapacity (trace.filterMap TransportEvent.audio?)
    ((early trace).filterMap TransportEvent.audio?)
  written : Written s.session s.video.sent s.audio.sent

theorem early_isPrefix (trace : List TransportEvent) (event : TransportEvent) :
    early trace <+: early (trace ++ [event]) := by
  rw [early, early, List.takeWhile_append]
  split
  · exact (List.takeWhile_prefix _).trans (List.prefix_append _ _)
  · exact List.prefix_refl _

theorem early_snoc (trace : List TransportEvent) (event : TransportEvent) :
    early (trace ++ [event]) <+: early trace ++ [event] := by
  rw [early, early, List.takeWhile_append]
  split
  · next hall =>
    rw [(List.takeWhile_prefix _).eq_of_length hall, List.prefix_append_right_inj]
    exact List.takeWhile_prefix _
  · exact List.prefix_append _ _

theorem early_connected (h : trace.any TransportEvent.isRequest = true) (event : TransportEvent) :
    early (trace ++ [event]) = early trace := by
  rw [early, early, List.takeWhile_append, if_neg]
  intro hall
  have hnone := List.takeWhile_eq_self_iff.mp ((List.takeWhile_prefix _).eq_of_length hall)
  obtain ⟨event', hmem, hrequest⟩ := List.any_eq_true.mp h
  have hnot := hnone event' hmem
  rw [hrequest] at hnot
  cases hnot

theorem early_alone (h : trace.any TransportEvent.isRequest = false) : early trace = trace := by
  refine List.takeWhile_eq_self_iff.mpr fun event hmem => ?_
  rw [Bool.eq_false_iff.mpr (List.any_eq_false.mp h event hmem)]
  rfl

theorem Inv.takeVideo (h : Inv trace s) (answer : WriteAnswer) : Inv trace (s.takeVideo answer) := by
  unfold TransportSession.takeVideo
  cases hqueue : s.video.queue with
  | nil => exact h
  | cons frame queue =>
      dsimp only
      split
      · next hconnected =>
        have halone : ∀ {P : Prop}, s.connected = false → P := fun hfalse =>
          absurd (hconnected.symm.trans hfalse) Bool.noConfusion
        refine ⟨h.connected, halone, h.video.submitted hqueue _, h.audio, ?_⟩
        rcases submit_spec s.session s.session.videoStream [frame] (submitVideoDataToStream frame)
          answer with ⟨hnot, hsame⟩ | ⟨hok, i, hi, hwritten⟩
        · rw [hnot, hsame]
          exact h.written
        · rw [hok, hwritten]
          exact h.written.writeVideo hi frame
      · next hconnected =>
        have hfalse := Bool.eq_false_iff.mpr hconnected
        obtain ⟨hsession, hvideo, haudio⟩ := h.alone hfalse
        have hearly := early_alone (h.connected.symm.trans hfalse)
        have hholds := h.video
        rw [hearly] at hholds
        refine ⟨h.connected, h.alone, ?_, h.audio, h.written⟩
        rw [hearly]
        exact hholds.drop hvideo hqueue

theorem Inv.takeAudio (h : Inv trace s) (answer : WriteAnswer) : Inv trace (s.takeAudio answer) := by
  unfold TransportSession.takeAudio
  cases hqueue : s.audio.queue with
  | nil => exact h
  | cons frame queue =>
      dsimp only
      split
      · next hconnected =>
        have halone : ∀ {P : Prop}, s.connected = false → P := fun hfalse =>
          absurd (hconnected.symm.trans hfalse) Bool.noConfusion
        refine ⟨h.connected, halone, h.video, h.audio.submitted hqueue _, ?_⟩
        rcases submit_spec s.session s.session.audioStream [] (submitAudioDataToStream frame)
          answer with ⟨hnot, hsame⟩ | ⟨hok, i, hi, hwritten⟩
        · rw [hnot, hsame]
          exact h.written
        · rw [hok, hwritten]
          exact h.written.writeAudio hi frame
      · next hconnected =>
        have hfalse := Bool.eq_false_iff.mpr hconnected
        obtain ⟨hsession, hvideo, haudio⟩ := h.alone hfalse
        have hearly := early_alone (h.connected.symm.trans hfalse)
        have hholds := h.audio
        rw [hearly] at hholds
        refine ⟨h.connected, h.alone, h.video, ?_, h.written⟩
        rw [hearly]
        exact hholds.drop haudio hqueue

theorem filterMap_one {α β : Type} (f : α → Option β) (a : α) : [a].filterMap f = (f a).toList := by
  rw [List.filterMap_cons]
  cases f a <;> rfl

/-- What an event leaves behind. -/
theorem Inv.snoc (h : Inv trace s) {event : TransportEvent}
    (hconnected : t.connected = (s.connected || event.isRequest))
    (halone : t.connected = false → t.session = .start R ∧ t.video.sent = [] ∧ t.audio.sent = [])
    (hvideo : t.video.Holds videoQueueCapacity
      (trace.filterMap TransportEvent.video? ++ event.video?.toList)
      ((early trace).filterMap TransportEvent.video?))
    (haudio : t.audio.Holds audioQueueCapacity
      (trace.filterMap TransportEvent.audio? ++ event.audio?.toList)
      ((early trace).filterMap TransportEvent.audio?))
    (hwritten : Written t.session t.video.sent t.audio.sent) : Inv (trace ++ [event]) t := by
  refine ⟨?_, halone, ?_, ?_, hwritten⟩
  · rw [hconnected, h.connected, List.any_append, List.any_cons, List.any_nil, Bool.or_false]
  · rw [List.filterMap_append, filterMap_one]
    exact hvideo.mono ((early_isPrefix trace event).filterMap _)
  · rw [List.filterMap_append, filterMap_one]
    exact haudio.mono ((early_isPrefix trace event).filterMap _)

/-- Nothing is pushed, and nobody connects. -/
theorem Inv.quiet (h : Inv trace s) {event : TransportEvent} (hvideo : event.video? = none)
    (haudio : event.audio? = none) (hrequest : event.isRequest = false) : Inv (trace ++ [event]) s := by
  refine h.snoc ?_ h.alone ?_ ?_ h.written
  · rw [hrequest, Bool.or_false]
  · rw [hvideo, Option.toList_none, List.append_nil]
    exact h.video
  · rw [haudio, Option.toList_none, List.append_nil]
    exact h.audio

theorem Inv.next (h : Inv trace s) {event : TransportEvent} (hnext : s.next event = some t) :
    Inv (trace ++ [event]) t := by
  cases event with
  | pushVideo frame =>
      obtain ⟨video, hpush, rfl⟩ := Option.map_eq_some_iff.mp hnext
      have hsent := Lane.push_sent hpush
      refine h.snoc (Bool.or_false _).symm (fun hfalse => ?_) (h.video.push hpush)
        ((List.append_nil (trace.filterMap TransportEvent.audio?)).symm ▸ h.audio) ?_
      · obtain ⟨hsession, hvideo, haudio⟩ := h.alone hfalse
        exact ⟨hsession, hsent.trans hvideo, haudio⟩
      · show Written s.session video.sent s.audio.sent
        rw [hsent]
        exact h.written
  | pushAudio frame =>
      obtain ⟨audio, hpush, rfl⟩ := Option.map_eq_some_iff.mp hnext
      have hsent := Lane.push_sent hpush
      refine h.snoc (Bool.or_false _).symm (fun hfalse => ?_)
        ((List.append_nil (trace.filterMap TransportEvent.video?)).symm ▸ h.video) (h.audio.push hpush) ?_
      · obtain ⟨hsession, hvideo, haudio⟩ := h.alone hfalse
        exact ⟨hsession, hvideo, hsent.trans haudio⟩
      · show Written s.session s.video.sent audio.sent
        rw [hsent]
        exact h.written
  | request =>
      have hconnected : t = { s with connected := true } := by
        obtain ⟨isSessionActive, isThreadActive, connected, video, audio, session⟩ := s
        cases connected <;> exact (Option.some.inj hnext).symm
      subst hconnected
      exact h.snoc (Bool.or_true _).symm (fun hfalse => Bool.noConfusion hfalse)
        ((List.append_nil (trace.filterMap TransportEvent.video?)).symm ▸ h.video)
        ((List.append_nil (trace.filterMap TransportEvent.audio?)).symm ▸ h.audio) h.written
  | sessionClosed =>
      rw [TransportSession.next] at hnext
      split at hnext
      · cases hnext
        have hclosed : Inv trace { s with isThreadActive := false } :=
          ⟨h.connected, h.alone, h.video, h.audio, h.written⟩
        exact hclosed.quiet rfl rfl rfl
      · cases hnext
  | stop =>
      cases hnext
      have hstopped : Inv trace { s with isSessionActive := false } :=
        ⟨h.connected, h.alone, h.video, h.audio, h.written⟩
      exact hstopped.quiet rfl rfl rfl
  | iteration video audio =>
      rw [TransportSession.next] at hnext
      split at hnext
      · cases hnext
        exact ((h.takeVideo video).takeAudio audio).quiet rfl rfl rfl
      · cases hnext
  | media step =>
      rw [TransportSession.next] at hnext
      split at hnext
      · next hallowed =>
        obtain ⟨session, hstep, rfl⟩ := Option.map_eq_some_iff.mp hnext
        rw [Bool.and_eq_true, Bool.not_eq_true'] at hallowed
        have hmedia : Inv trace { s with session := session } :=
          ⟨h.connected, fun hfalse => absurd (hallowed.1.symm.trans hfalse) Bool.noConfusion, h.video,
            h.audio, h.written.next hallowed.2 hstep⟩
        exact hmedia.quiet rfl rfl rfl
      · cases hnext

theorem run_inv {allowed : MediaSession R → MediaStep → Prop} (hs : (system R allowed).Run trace s) :
    Inv trace s := by
  refine hs.invariant Inv ?_ ?_
  · rintro s rfl
    exact ⟨rfl, fun _ => ⟨rfl, rfl, rfl⟩, ⟨rfl, List.nil_prefix, Nat.zero_le _⟩,
      ⟨rfl, List.nil_prefix, Nat.zero_le _⟩, Written.start⟩
  · intro trace s event t h hstep
    exact h.next hstep.2

/-- One frame at most is written, as a packet on this stream. -/
inductive Adds {φ : Type} (encode : φ → Bytes) (shows : φ → List VideoFrame) (stream : Option Nat) :
    List φ → List Side → List Side → Prop
  | nothing (all : List Side) : Adds encode shows stream [] all all
  | packet {i : Nat} (hstream : stream = some i) (frame : φ) (all : List Side) :
      Adds encode shows stream [frame] all (all.modify i (writeSide (shows frame) (encode frame)))

/-- What an event writes: a packet on the stream for the video, and one on the stream for the audio.
Streams that are opened are empty. -/
def Writes (s t : TransportSession R) : Prop :=
  ∃ videos audios between after opened,
    (t.video.sent = s.video.sent ++ videos ∧ t.audio.sent = s.audio.sent ++ audios) ∧
      Adds submitVideoDataToStream (fun frame => [frame]) s.session.videoStream videos
        (sides s.session) between ∧
      Adds submitAudioDataToStream (fun _ => []) s.session.audioStream audios between after ∧
      sides t.session = after ++ opened ∧ ∀ one ∈ opened, one.2 = ([], [])

theorem Writes.of_same (hvideo : t.video.sent = s.video.sent) (haudio : t.audio.sent = s.audio.sent)
    (hsides : sides t.session = sides s.session) : Writes s t :=
  ⟨[], [], sides s.session, sides s.session, [],
    ⟨hvideo.trans (List.append_nil _).symm, haudio.trans (List.append_nil _).symm⟩, .nothing _,
    .nothing _, hsides.trans (List.append_nil _).symm, nofun⟩

theorem adds_submit {φ : Type} (encode : φ → Bytes) (shows : φ → List VideoFrame) (lane : Lane φ)
    (session : MediaSession R) (stream : Option Nat) (frame : φ) (answer : WriteAnswer) :
    ∃ frames, (lane.submitted frame (submitOk stream answer)).sent = lane.sent ++ frames ∧
      Adds encode shows stream frames (sides session)
        (sides (session.submit stream (shows frame) (encode frame) answer.canWrite answer.ok)) := by
  rcases submit_spec session stream (shows frame) (encode frame) answer with
    ⟨hnot, hsame⟩ | ⟨hok, i, hi, hwritten⟩
  · rw [hnot, hsame]
    exact ⟨[], (List.append_nil _).symm, .nothing _⟩
  · rw [hok, hwritten, sides_write]
    exact ⟨[frame], rfl, .packet hi frame _⟩

theorem takeVideo_adds (s : TransportSession R) (answer : WriteAnswer) :
    ∃ videos, (s.takeVideo answer).video.sent = s.video.sent ++ videos ∧
      (s.takeVideo answer).audio = s.audio ∧
      (s.takeVideo answer).session.audioStream = s.session.audioStream ∧
      Adds submitVideoDataToStream (fun frame => [frame]) s.session.videoStream videos
        (sides s.session) (sides (s.takeVideo answer).session) := by
  unfold TransportSession.takeVideo
  cases s.video.queue with
  | nil => exact ⟨[], (List.append_nil _).symm, rfl, rfl, .nothing _⟩
  | cons frame queue =>
      dsimp only
      split
      · obtain ⟨videos, hsent, hadds⟩ := adds_submit submitVideoDataToStream (fun frame => [frame])
          s.video s.session s.session.videoStream frame answer
        refine ⟨videos, hsent, rfl, ?_, hadds⟩
        rcases submit_spec s.session s.session.videoStream [frame] (submitVideoDataToStream frame)
          answer with ⟨-, hsame⟩ | ⟨-, i, -, hwritten⟩
        · exact congrArg MediaSession.audioStream hsame
        · exact (congrArg MediaSession.audioStream hwritten).trans rfl
      · exact ⟨[], (List.append_nil _).symm, rfl, rfl, .nothing _⟩

theorem takeAudio_adds (s : TransportSession R) (answer : WriteAnswer) :
    ∃ audios, (s.takeAudio answer).audio.sent = s.audio.sent ++ audios ∧
      (s.takeAudio answer).video = s.video ∧
      Adds submitAudioDataToStream (fun _ => []) s.session.audioStream audios
        (sides s.session) (sides (s.takeAudio answer).session) := by
  unfold TransportSession.takeAudio
  cases s.audio.queue with
  | nil => exact ⟨[], (List.append_nil _).symm, rfl, .nothing _⟩
  | cons frame queue =>
      dsimp only
      split
      · obtain ⟨audios, hsent, hadds⟩ := adds_submit submitAudioDataToStream (fun _ => [])
          s.audio s.session s.session.audioStream frame answer
        exact ⟨audios, hsent, rfl, hadds⟩
      · exact ⟨[], (List.append_nil _).symm, rfl, .nothing _⟩

theorem openedSides_empty {one : Side} {video credit : Bool} (h : one ∈ openedSides video credit) :
    one.2 = ([], []) := by
  cases credit with
  | false => cases h
  | true => rw [List.mem_singleton.mp h]

theorem writes_next {event : TransportEvent} (hnext : s.next event = some t) : Writes s t := by
  cases event with
  | pushVideo frame =>
      obtain ⟨video, hpush, rfl⟩ := Option.map_eq_some_iff.mp hnext
      exact .of_same (Lane.push_sent hpush) rfl rfl
  | pushAudio frame =>
      obtain ⟨audio, hpush, rfl⟩ := Option.map_eq_some_iff.mp hnext
      exact .of_same rfl (Lane.push_sent hpush) rfl
  | request =>
      rw [TransportSession.next] at hnext
      split at hnext <;> cases hnext <;> exact .of_same rfl rfl rfl
  | sessionClosed =>
      rw [TransportSession.next] at hnext
      split at hnext <;> cases hnext
      exact .of_same rfl rfl rfl
  | stop =>
      cases hnext
      exact .of_same rfl rfl rfl
  | iteration video audio =>
      rw [TransportSession.next] at hnext
      split at hnext <;> cases hnext
      obtain ⟨videos, hvideos, haudio, hstream, haddsVideo⟩ := takeVideo_adds s video
      obtain ⟨audios, haudios, hvideo, haddsAudio⟩ := takeAudio_adds (s.takeVideo video) audio
      rw [haudio] at haudios
      rw [hstream] at haddsAudio
      exact ⟨videos, audios, _, _, [], ⟨hvideo ▸ hvideos, haudios⟩, haddsVideo, haddsAudio,
        (List.append_nil _).symm, nofun⟩
  | media step =>
      rw [TransportSession.next] at hnext
      split at hnext
      · next hallowed =>
        obtain ⟨session, hstep, rfl⟩ := Option.map_eq_some_iff.mp hnext
        rw [Bool.and_eq_true, Bool.not_eq_true'] at hallowed
        rcases next_sides hallowed.2 hstep with hsame | ⟨s', videoCredit, audioCredit, hsame, rfl⟩
        · exact .of_same rfl rfl hsame.1
        · have hsides := sides_canCreate s' videoCredit audioCredit
          rw [hsame.1, List.append_assoc] at hsides
          refine ⟨[], [], _, _, _, ⟨(List.append_nil _).symm, (List.append_nil _).symm⟩, .nothing _,
            .nothing _, hsides, fun one hmem => ?_⟩
          rcases List.mem_append.mp hmem with hmem | hmem
          · exact openedSides_empty hmem
          · exact openedSides_empty hmem
      · cases hnext

/-- Each frame that was not dropped is written once, in order, or waits in its queue. -/
structure WrittenOnce (trace : List TransportEvent) (s : TransportSession R) : Prop where
  videos : s.video.dropped ++ s.video.sent ++ s.video.queue = trace.filterMap TransportEvent.video?
  audios : s.audio.dropped ++ s.audio.sent ++ s.audio.queue = trace.filterMap TransportEvent.audio?
  videoPackets : Packets submitVideoDataToStream (bytesOf true (sides s.session)) s.video.sent
  audioPackets : Packets submitAudioDataToStream (bytesOf false (sides s.session)) s.audio.sent
  newestVideo : Newest true s.session.videoStream ((sides s.session).map Prod.fst)
  newestAudio : Newest false s.session.audioStream ((sides s.session).map Prod.fst)
  writes : ∀ event t, s.next event = some t → Writes s t
  earlyVideos : s.video.dropped <+: (early trace).filterMap TransportEvent.video?
  earlyAudios : s.audio.dropped <+: (early trace).filterMap TransportEvent.audio?

/-- What is dropped was pushed before there was a client; every other frame is written once, in
order, as one packet of the newest stream of its kind, or waits in its queue. -/
theorem frames_written_once {allowed : MediaSession R → MediaStep → Prop}
    (hs : (system R allowed).Run trace s) : WrittenOnce trace s := by
  have h := run_inv hs
  exact ⟨h.video.all, h.audio.all, h.written.videoPackets, h.written.audioPackets,
    h.written.videoStream, h.written.audioStream, fun event t hnext => writes_next hnext,
    h.video.early, h.audio.early⟩

/-! ## From the encoder to the worker -/

theorem session_next {fifo : R.Fifo} {event : TransportEvent} (h : s.session.Inv fifo)
    (horderly : ∀ step, event = .media step → s.session.Orderly step) (hnext : s.next event = some t) :
    t.session.Inv fifo := by
  cases event with
  | pushVideo frame =>
      obtain ⟨video, hpush, rfl⟩ := Option.map_eq_some_iff.mp hnext
      exact h
  | pushAudio frame =>
      obtain ⟨audio, hpush, rfl⟩ := Option.map_eq_some_iff.mp hnext
      exact h
  | request =>
      rw [TransportSession.next] at hnext
      split at hnext <;> cases hnext <;> exact h
  | sessionClosed =>
      rw [TransportSession.next] at hnext
      split at hnext <;> cases hnext
      exact h
  | stop =>
      cases hnext
      exact h
  | iteration video audio =>
      rw [TransportSession.next] at hnext
      split at hnext <;> cases hnext
      have hvideo : (s.takeVideo video).session.Inv fifo := by
        unfold TransportSession.takeVideo
        cases s.video.queue with
        | nil => exact h
        | cons frame queue =>
            dsimp only
            split
            · exact h.submitVideo frame video.canWrite video.ok
            · exact h
      unfold TransportSession.takeAudio
      cases (s.takeVideo video).audio.queue with
      | nil => exact hvideo
      | cons frame queue =>
          dsimp only
          split
          · exact hvideo.submitAudio frame audio.canWrite audio.ok
          · exact hvideo
  | media step =>
      rw [TransportSession.next] at hnext
      split at hnext
      · obtain ⟨session, hstep, rfl⟩ := Option.map_eq_some_iff.mp hnext
        exact h.next (horderly step rfl) hstep
      · cases hnext

theorem session_inv (fifo : R.Fifo) (hs : (system R MediaSession.Orderly).Run trace s) :
    s.session.Inv fifo := by
  refine hs.always (fun s => s.session.Inv fifo) ?_ ?_
  · rintro s rfl
    exact MediaSession.start_inv fifo
  · intro s event t h hstep
    exact session_next h hstep.1 hstep.2

/-- One stream has been opened for the video, at most. -/
def OneVideo (s : MediaSession R) : Prop :=
  ∀ (i j : Nat) (st st' : MediaStream), s.streams[i]? = some st → s.streams[j]? = some st' →
    st.video = true → st'.video = true → i = j

theorem OneVideo.of_kinds {s t : MediaSession R} (h : OneVideo s)
    (hkinds : (sides t).map Prod.fst = (sides s).map Prod.fst) : OneVideo t := by
  have hsame : ∀ (i : Nat) (st : MediaStream), t.streams[i]? = some st →
      ∃ st', s.streams[i]? = some st' ∧ st'.video = st.video := by
    intro i st hst
    have hkind := congrArg (fun kinds => kinds[i]?) hkinds
    simp only [sides, List.getElem?_map, hst, Option.map_some] at hkind
    obtain ⟨one, hone, hvideo⟩ := Option.map_eq_some_iff.mp hkind.symm
    obtain ⟨st', hst', rfl⟩ := Option.map_eq_some_iff.mp hone
    exact ⟨st', hst', hvideo⟩
  intro i j st st' hst hst' hvideo hvideo'
  obtain ⟨one, hone, hsame₁⟩ := hsame i st hst
  obtain ⟨other, hother, hsame₂⟩ := hsame j st' hst'
  exact h i j one other hone hother (hsame₁.trans hvideo) (hsame₂.trans hvideo')

theorem shown_one {s : MediaSession R} (hone : OneVideo s) {i : Nat} {st : MediaStream}
    (hst : s.streams[i]? = some st) (hvideo : st.video = true) {β : Type}
    (f : List VideoFrame × Bytes → List β) : shown true f (sides s) = f (st.frames, st.written) := by
  obtain ⟨hlt, rfl⟩ := List.getElem?_eq_some_iff.mp hst
  have hothers : ∀ j st', j ≠ i → s.streams[j]? = some st' → (side st').1 ≠ true := fun j st' hne hj htrue =>
    hne (hone j i st' _ hj hst htrue hvideo)
  have hbefore : shown true f ((s.streams.take i).map side) = [] := by
    refine shown_others fun one hmem => ?_
    obtain ⟨st', hst', rfl⟩ := List.mem_map.mp hmem
    obtain ⟨j, hj⟩ := List.mem_iff_getElem?.mp hst'
    rw [List.getElem?_take] at hj
    split at hj
    · exact hothers j st' (by omega) hj
    · cases hj
  have hafter : shown true f ((s.streams.drop (i + 1)).map side) = [] := by
    refine shown_others fun one hmem => ?_
    obtain ⟨st', hst', rfl⟩ := List.mem_map.mp hmem
    obtain ⟨j, hj⟩ := List.mem_iff_getElem?.mp hst'
    rw [List.getElem?_drop] at hj
    exact hothers _ st' (by omega) hj
  have hsplit : sides s = (s.streams.take i).map side ++
      side s.streams[i] :: (s.streams.drop (i + 1)).map side := by
    rw [← List.map_cons, ← List.drop_eq_getElem_cons hlt, ← List.map_append, List.take_append_drop]
    rfl
  rw [hsplit, shown_append, shown_cons, hbefore, hafter, List.append_nil, List.nil_append]
  exact if_pos hvideo

/-- The video reader has been started on the one stream. -/
theorem started_one {fifo : R.Fifo} {s : MediaSession R} (h : s.Inv fifo) (hone : OneVideo s) :
    s.started = [] ∨ ∃ i st, s.started = [i] ∧ s.streams[i]? = some st ∧ st.video = true := by
  have hvideo : ∀ i ∈ s.started, ∃ st, s.streams[i]? = some st ∧ st.video = true := by
    intro i hi
    have hst := List.getElem?_eq_getElem (h.exist i hi)
    exact ⟨_, hst, (h.knows i _ hst).started hi⟩
  cases hstarted : s.started with
  | nil => exact .inl rfl
  | cons i rest =>
      rw [hstarted] at hvideo
      obtain ⟨st, hst, htrue⟩ := hvideo i List.mem_cons_self
      refine .inr ⟨i, st, ?_, hst, htrue⟩
      cases rest with
      | nil => rfl
      | cons j rest =>
          obtain ⟨st', hst', htrue'⟩ := hvideo j (List.mem_cons_of_mem _ List.mem_cons_self)
          have honce := h.once
          rw [hstarted, hone i j st st' hst hst' htrue htrue'] at honce
          exact absurd List.mem_cons_self (List.nodup_cons.mp honce).1

/-- What the worker takes off is what the encoder has pushed, from the first frame that was not
dropped on, without a gap. -/
theorem extracted_prefix (fifo : R.Fifo) (hs : (system R MediaSession.Orderly).Run trace s)
    (hone : OneVideo s.session) :
    s.session.worker.extracted <+:
      ((trace.filterMap TransportEvent.video?).drop s.video.dropped.length).map VideoReading.packet := by
  have h := run_inv hs
  have hsession : s.session.Inv fifo := session_inv fifo hs
  rw [← h.video.all, List.append_assoc, List.drop_left, List.map_append]
  refine (hsession.extracts.inOrder.trans ?_).trans (List.prefix_append _ _)
  rw [← h.written.frames]
  suffices hsofar : s.session.started.flatMap s.session.arrivedOn <+: shown true Prod.fst (sides s.session)
    from hsofar.map _
  rcases started_one hsession hone with hnone | ⟨i, st, hstarted, hst, hvideo⟩
  · rw [hnone]
    exact List.nil_prefix
  · rw [hstarted, List.flatMap_singleton, shown_one hone hst hvideo, MediaSession.arrivedOn_eq hst]
    exact whole_prefix submitVideoDataToStream st.frames st.read

/-! Everything can still be delivered. -/

/-- The thread runs, and the client reads the stream that is written to, or has not looked at it. -/
structure Live (s : TransportSession R) (i : Nat) : Prop where
  active : (s.isSessionActive && s.isThreadActive) = true
  connected : s.connected = true
  one : OneVideo s.session
  stream : s.session.videoStream = some i
  reads : ∃ st, s.session.streams[i]? = some st ∧ (st.reader = .routing ∨ st.reader = .video)

theorem takeAudio_refused (hconnected : s.connected = true) : s.takeAudio ⟨false, false⟩ = s := by
  unfold TransportSession.takeAudio
  cases hqueue : s.audio.queue with
  | nil => rfl
  | cons frame queue =>
      rcases submit_spec s.session s.session.audioStream [] (submitAudioDataToStream frame) ⟨false, false⟩
        with ⟨hnot, hsame⟩ | ⟨hok, -⟩
      · dsimp only at hsame ⊢
        rw [if_pos hconnected, hnot, hsame]
        rfl
      · rw [submitOk, Bool.and_false, Bool.and_false] at hok
        cases hok

/-- One iteration in which the stream takes what it is given. -/
theorem Live.iteration {i : Nat} (h : Live s i) {frame : VideoFrame} {queue : List VideoFrame}
    (hqueue : s.video.queue = frame :: queue) : ∃ t,
      s.next (.iteration ⟨true, true⟩ ⟨false, false⟩) = some t ∧ Live t i ∧ t.video.queue = queue ∧
        t.video.sent = s.video.sent ++ [frame] := by
  obtain ⟨st, hst, hreader⟩ := h.reads
  have htake : s.takeVideo ⟨true, true⟩ =
      { s with
        session := { s.session with
          streams := s.session.streams.modify i (·.write [frame] (submitVideoDataToStream frame)) }
        video := ⟨queue, s.video.dropped, s.video.sent ++ [frame]⟩ } := by
    have hsubmit := congrArg (fun stream => s.session.submit stream [frame] (submitVideoDataToStream frame)
      true true) h.stream
    have hok : submitOk s.session.videoStream ⟨true, true⟩ = true := by
      rw [h.stream]
      rfl
    rw [TransportSession.takeVideo, hqueue]
    dsimp only at hsubmit ⊢
    rw [if_pos h.connected, hsubmit, hok, Lane.submitted, hqueue]
    rfl
  obtain ⟨t, ht⟩ : ∃ t, t = s.takeVideo ⟨true, true⟩ := ⟨_, rfl⟩
  refine ⟨t, ?_, ?_, ?_, ?_⟩
  · have hconnected : t.connected = true := by rw [ht, htake]; exact h.connected
    rw [TransportSession.next, if_pos h.active, ← ht, takeAudio_refused hconnected]
  · rw [ht, htake]
    refine ⟨h.active, h.connected, h.one.of_kinds ?_, h.stream,
      st.write [frame] (submitVideoDataToStream frame), ?_, hreader⟩
    · rw [sides_write, map_fst_write]
    · rw [List.getElem?_modify_eq, hst]
      rfl
  · rw [ht, htake]
  · rw [ht, htake]

theorem Live.writes {i : Nat} (h : Live s i) (hs : (system R MediaSession.Orderly).Run trace s) :
    ∃ events t, (system R MediaSession.Orderly).Run (trace ++ events) t ∧ Live t i ∧ t.video.queue = [] ∧
      t.video.sent = s.video.sent ++ s.video.queue := by
  obtain ⟨queue, hqueue⟩ : ∃ queue, s.video.queue = queue := ⟨_, rfl⟩
  rw [hqueue]
  induction queue generalizing s trace with
  | nil => exact ⟨[], s, by rwa [List.append_nil], h, hqueue, (List.append_nil _).symm⟩
  | cons frame queue ih =>
      obtain ⟨s', hnext, hlive, hrest, hsent⟩ := h.iteration hqueue
      have hstep : (system R MediaSession.Orderly).step s (.iteration ⟨true, true⟩ ⟨false, false⟩) s' :=
        ⟨nofun, hnext⟩
      obtain ⟨events, t, ht, htlive, hempty, hall⟩ := ih hlive (.next hs hstep) hrest
      rw [List.append_assoc] at ht
      refine ⟨_, t, ht, htlive, hempty, ?_⟩
      rw [hall, hsent, List.append_assoc, List.singleton_append]

theorem media_next {step : MediaStep} {session : MediaSession R} (hconnected : s.connected = true)
    (hs : (system R MediaSession.Orderly).Run trace s) (hstep : submits step = false)
    (horderly : s.session.Orderly step) (hnext : s.session.next step = some session) :
    (system R MediaSession.Orderly).Run (trace ++ [.media step]) { s with session := session } := by
  refine .next hs ⟨fun step' heq => ?_, ?_⟩
  · cases heq
    exact horderly
  · rw [TransportSession.next, hconnected, hstep, hnext]
    rfl

/-- A chunk of the stream finds its reader. -/
theorem Live.receives {i : Nat} (h : Live s i) {fifo : R.Fifo} (hinv : s.session.Inv fifo) {st : MediaStream}
    (hst : s.session.streams[i]? = some st) {length : Nat} (hpos : 0 < length)
    (hle : st.read + length ≤ st.written.length) :
    ∃ session, s.session.next (.chunk i length) = some session ∧
      Changes s.session session i { st with read := st.read + length, read_le := hle } := by
  obtain ⟨value, hvalue⟩ : ∃ value, value = (st.written.drop st.read).take length := ⟨_, rfl⟩
  have hread : st.readChunk length = some (value, { st with read := st.read + length, read_le := hle }) := by
    rw [MediaStream.readChunk, dif_pos hle, hvalue]
  suffices hsome : ∃ session, s.session.receiveChunk i { st with read := st.read + length, read_le := hle }
      value = some session by
    obtain ⟨session, hsession⟩ := hsome
    refine ⟨session, ?_, receiveChunk_changes hsession⟩
    rw [MediaSession.next, hst, Option.bind_some, hread]
    exact hsession
  have hk := hinv.knows i st hst
  obtain ⟨st', hst', hreader⟩ := h.reads
  obtain rfl := Option.some.inj (hst.symm.trans hst')
  rw [MediaSession.receiveChunk]
  rcases hreader with hrouting | hvideo
  · have hne : value ≠ [] := by
      rw [hvalue]
      refine List.ne_nil_of_length_pos ?_
      rw [List.length_take, List.length_drop]
      omega
    have hfirst : value = st.written.take length := by
      rw [hvalue, (hk.routing hrouting).1, List.drop_zero]
    have hroute := hk.sent.routed hfirst hne
    rw [hk.videoStream h.stream, if_pos rfl] at hroute
    rw [hrouting, hroute]
    exact ⟨_, if_neg hne⟩
  · rw [hvideo]
    exact ⟨_, rfl⟩

/-- A stream of which nothing has been read finds the reader free. -/
theorem Live.orderly {i : Nat} (h : Live s i) {fifo : R.Fifo} (hinv : s.session.Inv fifo) (length : Nat) :
    s.session.Orderly (.chunk i length) := by
  intro st hst hrouting hvideo hpos
  have hnone : s.session.started = [] := by
    rcases started_one hinv h.one with hnone | ⟨j, st', hstarted, hst', hvideo'⟩
    · exact hnone
    · have hnot := ((hinv.knows i st hst).routing hrouting).2
      rw [hstarted, h.one i j st st' hst hst' hvideo hvideo'] at hnot
      exact absurd List.mem_cons_self hnot
  refine ⟨?_, fun j hj => ?_⟩
  · cases hreader : s.session.media.reader with
    | none => rfl
    | some j =>
        have hlast := hinv.last j hreader
        rw [hnone] at hlast
        cases hlast
  · rw [hnone] at hj
    cases hj

/-- The client reads what has been written. -/
theorem Live.reads_all {i : Nat} (h : Live s i) {fifo : R.Fifo}
    (hs : (system R MediaSession.Orderly).Run trace s) (hinv : s.session.Inv fifo) :
    ∃ events t, (system R MediaSession.Orderly).Run (trace ++ events) t ∧ t.connected = true ∧
      t.video = s.video ∧ OneVideo t.session ∧
      ∃ st, t.session.streams[i]? = some st ∧ st.video = true ∧ st.read = st.written.length := by
  obtain ⟨st, hst, -⟩ := h.reads
  have hvideo := (hinv.knows i st hst).videoStream h.stream
  have hle := st.read_le
  by_cases hall : st.read = st.written.length
  · exact ⟨[], s, by rwa [List.append_nil], h.connected, rfl, h.one, st, hst, hvideo, hall⟩
  · obtain ⟨session, hnext, hchanges⟩ := h.receives hinv hst
      (by omega : 0 < st.written.length - st.read) (by omega)
    have hsame := hchanges.same hst rfl
    obtain ⟨⟨st', hstreams, hside, hread⟩, -⟩ := hchanges
    refine ⟨_, _, media_next h.connected hs rfl (h.orderly hinv _) hnext, h.connected, rfl,
      h.one.of_kinds (congrArg _ hsame.1), st', ?_, ?_, ?_⟩
    · show session.streams[i]? = some st'
      rw [hstreams, List.getElem?_set_self (List.getElem?_eq_some_iff.mp hst).1]
    · exact (congrArg Prod.fst hside).trans hvideo
    · have hwritten : st'.written = st.written := congrArg (fun one : Side => one.2.2) hside
      rw [hread, hwritten]
      show st.read + (st.written.length - st.read) = st.written.length
      omega

theorem handles_posted (hs : (system R MediaSession.Orderly).Run trace s) (hconnected : s.connected = true)
    (hpending : s.session.media.pendingChunks = []) :
    ∃ events t, (system R MediaSession.Orderly).Run (trace ++ events) t ∧ t.session.Settled ∧
      t.video = s.video ∧ t.session.streams = s.session.streams := by
  obtain ⟨posted, hposted⟩ : ∃ posted, s.session.media.posted = posted := ⟨_, rfl⟩
  induction posted generalizing s trace with
  | nil => exact ⟨[], s, by rwa [List.append_nil], ⟨hpending, hposted⟩, rfl, rfl⟩
  | cons batch posted ih =>
      have hnext : s.session.next (.work MediaSession.willing) =
          some (s.session.worked MediaSession.willing batch posted) := by
        rw [MediaSession.next, hposted]
        rfl
      have horderly : s.session.Orderly (.work MediaSession.willing) := fun _ => rfl
      obtain ⟨events, t, ht, hsettled, hvideo, hstreams⟩ :=
        ih (media_next hconnected hs rfl horderly hnext) hconnected hpending rfl
      rw [List.append_assoc] at ht
      exact ⟨_, t, ht, hsettled, hvideo, hstreams⟩

theorem settles {fifo : R.Fifo} (hconnected : s.connected = true) (hinv : s.session.Inv fifo)
    (hs : (system R MediaSession.Orderly).Run trace s) :
    ∃ events t, (system R MediaSession.Orderly).Run (trace ++ events) t ∧ t.session.Settled ∧
      t.video = s.video ∧ t.session.streams = s.session.streams := by
  by_cases hpending : s.session.media.pendingChunks = []
  · exact handles_posted hs hconnected hpending
  · have hnext : s.session.next .timer = some { s.session with
        media := s.session.media.clearFlushTimer.flushPendingChunks } := by
      rw [MediaSession.next, if_pos (hinv.armed hpending)]
    have horderly : s.session.Orderly .timer := trivial
    obtain ⟨events, t, ht, hsettled, hvideo, hstreams⟩ :=
      handles_posted (media_next hconnected hs rfl horderly hnext) hconnected
        (TransportMediaStream.flush_spec _).1
    rw [List.append_assoc] at ht
    exact ⟨_, t, ht, hsettled, hvideo, hstreams⟩

/-- While the client reads its stream, everything that has been pushed and was not dropped can still
come to the worker. -/
theorem pushed_can_arrive (fifo : R.Fifo) (hs : (system R MediaSession.Orderly).Run trace s) {i : Nat}
    (hlive : Live s i) :
    ∃ events t, (system R MediaSession.Orderly).Run (trace ++ events) t ∧
      t.session.worker.extracted =
        ((trace.filterMap TransportEvent.video?).drop s.video.dropped.length).map VideoReading.packet := by
  obtain ⟨events₁, s₁, hs₁, hlive₁, hqueue, hsent⟩ := hlive.writes hs
  obtain ⟨events₂, s₂, hs₂, hconnected, hvideo, hone, st, hst, hstvideo, hread⟩ :=
    hlive₁.reads_all hs₁ (session_inv fifo hs₁)
  obtain ⟨events₃, t, ht, hsettled, hvideo', hstreams⟩ := settles hconnected (session_inv fifo hs₂) hs₂
  rw [List.append_assoc, List.append_assoc] at ht
  refine ⟨_, t, ht, ?_⟩
  have hpushed := (run_inv hs).video.all
  rw [← hpushed, List.append_assoc, List.drop_left, ← hsent, ← hvideo, ← hvideo']
  have hextracts : t.session.Extracts t.session.started := (session_inv fifo ht).extracts
  have hinv : t.session.Inv fifo := session_inv fifo ht
  have hst' : t.session.streams[i]? = some st := by rw [hstreams, hst]
  have hone' : OneVideo t.session := hone.of_kinds (by rw [sides, sides, hstreams])
  rw [hextracts.all hsettled, ← (run_inv ht).written.frames, shown_one hone' hst' hstvideo,
    MediaSession.packetsOf]
  refine congrArg (List.map VideoReading.packet) ?_
  -- everything has arrived on the one stream
  have harrived : t.session.arrivedOn i = st.frames := by
    rw [MediaSession.arrivedOn_eq hst', MediaStream.arrived, hread,
      (hinv.knows i st hst').sent.written_eq hstvideo, whole_all]
  rcases started_one hinv hone' with hnone | ⟨j, st', hstarted, hst'', hvideo''⟩
  · have hempty : t.session.arrivedOn i = [] := by
      by_contra hne
      have hmem := hextracts.every i hne
      rw [hnone] at hmem
      cases hmem
    rw [hnone, ← harrived, hempty]
    rfl
  · obtain rfl := hone' i j st st' hst' hst'' hstvideo hvideo''
    rw [hstarted, List.flatMap_singleton, harrived]

/-! ### An example -/

def taken : WriteAnswer := ⟨true, true⟩

/-- The first frame is dropped, the second one has been received, and the third one waits. -/
def firstFrames : List TransportEvent :=
  [.pushVideo (MediaSession.oneByte 1), .iteration taken taken, .request,
    .media (.sessionReady true true true),
    .pushVideo (MediaSession.oneByte 2), .iteration taken taken, .media (.chunk 0 7),
    .pushVideo (MediaSession.oneByte 3)]

/-- What is in order by a look at the streams only. -/
def careful (s : TransportSession R) : TransportEvent → Bool
  | .media step => s.session.careful step
  | _ => true

theorem oneVideo_of_kinds {s : MediaSession R} (h : s.streams.map MediaStream.video = [true, false]) :
    OneVideo s := by
  have hzero : ∀ (i : Nat) (st : MediaStream), s.streams[i]? = some st → st.video = true → i = 0 := by
    intro i st hst hvideo
    have hkind := congrArg (fun kinds => kinds[i]?) h
    simp only [List.getElem?_map, hst, Option.map_some, hvideo] at hkind
    cases i with
    | zero => rfl
    | succ i =>
        cases i with
        | zero => cases hkind
        | succ i => cases hkind
  intro i j st st' hst hst' hvideo hvideo'
  rw [hzero i st hst hvideo, hzero j st' hst' hvideo']

theorem firstFrames_run : ∃ s : TransportSession (QueueRing.ringBuffer Bytes),
    (system _ MediaSession.Orderly).Run firstFrames s ∧ s.video.dropped.length = 1 ∧ Live s 0 := by
  have hend : ((Labelled.follow next (fun s event => s.careful event = true) firstFrames
      (start (QueueRing.ringBuffer Bytes))).map fun s =>
        (s.isSessionActive && s.isThreadActive, s.connected, s.video.dropped.length, s.session.videoStream,
          s.session.streams.map MediaStream.video, s.session.streams.head?.map MediaStream.reader)) =
        some (true, true, 1, some 0, [true, false], some .video) := by rfl
  obtain ⟨s, hs, hresult⟩ := Option.map_eq_some_iff.mp hend
  simp only [Prod.mk.injEq] at hresult
  obtain ⟨hactive, hconnected, hdropped, hstream, hvideo, hreader⟩ := hresult
  have hrun : (system _ MediaSession.Orderly).Run firstFrames s := by
    refine (Labelled.Run.start rfl).follow (fun s event t hcareful hnext => ⟨?_, hnext⟩) hs
    rintro step rfl
    exact MediaSession.orderly_of_careful hcareful
  obtain ⟨st, hst, hreads⟩ := Option.map_eq_some_iff.mp hreader
  rw [List.head?_eq_getElem?] at hst
  exact ⟨s, hrun, hdropped, hactive, hconnected, oneVideo_of_kinds hvideo, hstream, st, hst, .inr hreads⟩

theorem fits_oneSample : ([9] : Bytes).length < 2 ^ 31 := by
  rw [List.length_singleton]
  decide

def oneSample : AudioFrame := ⟨[9], fits_oneSample⟩

/-- The first frame is dropped; the streams are opened again between the second one and the third. -/
def openedAgain : List TransportEvent :=
  [.pushVideo (MediaSession.oneByte 1), .iteration taken taken, .request,
    .media (.sessionReady true true true),
    .pushVideo (MediaSession.oneByte 2), .pushAudio oneSample, .iteration taken taken,
    .media (.canCreate true true), .pushVideo (MediaSession.oneByte 3), .iteration taken taken,
    .pushVideo (MediaSession.oneByte 4)]

theorem frames_written_once_openedAgain : ∃ s : TransportSession (QueueRing.ringBuffer Bytes),
    (system _ fun _ _ => True).Run openedAgain s ∧
      bytesOf true (sides s.session) = [[1, 0, 0, 0, 0, 1, 2], [1, 0, 0, 0, 0, 1, 3]] ∧
      s.session.videoStream = some 2 ∧ WrittenOnce openedAgain s := by
  have hend : ((Labelled.follow next (fun _ _ => True) openedAgain
      (start (QueueRing.ringBuffer Bytes))).map fun s =>
        (bytesOf true (sides s.session), s.session.videoStream)) =
        some ([[1, 0, 0, 0, 0, 1, 2], [1, 0, 0, 0, 0, 1, 3]], some 2) := by rfl
  obtain ⟨s, hs, hresult⟩ := Option.map_eq_some_iff.mp hend
  obtain ⟨hbytes, hstream⟩ := Prod.mk.inj hresult
  have hrun : (system _ fun _ _ => True).Run openedAgain s :=
    (Labelled.Run.start rfl).follow (fun _ _ _ _ hnext => ⟨fun _ _ => trivial, hnext⟩) hs
  exact ⟨s, hrun, hbytes, hstream, frames_written_once hrun⟩

theorem pushed_can_arrive_firstFrames : ∃ events, ∃ t : TransportSession (QueueRing.ringBuffer Bytes),
    (system _ MediaSession.Orderly).Run (firstFrames ++ events) t ∧
      t.session.worker.extracted =
        [MediaSession.oneByte 2, MediaSession.oneByte 3].map VideoReading.packet := by
  obtain ⟨s, hs, hdropped, hlive⟩ := firstFrames_run
  obtain ⟨events, t, ht, hextracted⟩ := pushed_can_arrive (QueueRing.fifo Bytes) hs hlive
  rw [hdropped] at hextracted
  exact ⟨events, t, ht, hextracted⟩

end TransportSession

end Stratus.Transport
