import Stratus.Frontend.VideoReading

/-! One session from the server's visitor, `StratusWebTransportSessionVisitor.cpp`, to the video
worker of the client: `streamRouter.ts`, `transportMediaStream.ts` and `videoStream.worker.ts`.  The
server may open streams again and again; of those with video the client reads one at a time. -/
namespace Stratus.Frontend

open Stratus.Lib Stratus.Transport

variable {R : RingBuffer Bytes}

/-! ### Streams -/

/-- What the client does with a stream. -/
inductive StreamReader where
  | routing
  | video
  | audio
  | cancelled
  | closed
deriving DecidableEq

/-- `video` says which of the two pointers the stream was opened for, `frames` are the video frames
that were reported as written on it, and `read` counts the bytes that the client has received. -/
structure MediaStream where
  video : Bool
  frames : List VideoFrame
  written : Bytes
  read : Nat
  reader : StreamReader
  read_le : read ≤ written.length

namespace MediaStream

def opened (video : Bool) : MediaStream where
  video := video
  frames := []
  written := []
  read := 0
  reader := .routing
  read_le := Nat.le_refl 0

def write (st : MediaStream) (frames : List VideoFrame) (packet : Bytes) : MediaStream where
  video := st.video
  frames := st.frames ++ frames
  written := st.written ++ packet
  read := st.read
  reader := st.reader
  read_le := st.read_le.trans (by simp)

/-- The next bytes, and the stream behind them. -/
def readChunk (st : MediaStream) (length : Nat) : Option (Bytes × MediaStream) :=
  if h : st.read + length ≤ st.written.length then
    some ((st.written.drop st.read).take length, { st with read := st.read + length, read_le := h })
  else none

def delivered (st : MediaStream) : Bytes := st.written.take st.read

/-- The frames that have arrived as a whole. -/
def arrived (st : MediaStream) : List VideoFrame :=
  whole submitVideoDataToStream st.frames st.read

/-- Nothing but whole frames has arrived. -/
def AtBoundary (st : MediaStream) : Prop :=
  (st.arrived.map submitVideoDataToStream).flatten.length = st.read

instance (st : MediaStream) : Decidable st.AtBoundary := inferInstanceAs (Decidable (_ = _))

end MediaStream

/-! ### Chunks on their way to the worker -/

def defaultMaxChunkBatchCount : Nat := 8

def defaultMaxChunkBatchBytes : Nat := 128 * 1024

/-- `reader` is the stream that is read, and `posted` are the batches that the worker has not
handled yet. -/
structure TransportMediaStream where
  reader : Option Nat
  pendingChunks : List Bytes
  pendingChunkBytes : Nat
  flushTimeout : Bool
  posted : List (List Bytes)

namespace TransportMediaStream

def create : TransportMediaStream where
  reader := none
  pendingChunks := []
  pendingChunkBytes := 0
  flushTimeout := false
  posted := []

def flushPendingChunks (m : TransportMediaStream) : TransportMediaStream :=
  if m.pendingChunks = [] then m
  else
    { m with
      pendingChunks := []
      pendingChunkBytes := 0
      posted := m.posted ++ [m.pendingChunks] }

def clearFlushTimer (m : TransportMediaStream) : TransportMediaStream :=
  { m with flushTimeout := false }

def queueChunk (m : TransportMediaStream) (value : Bytes) : TransportMediaStream :=
  if value = [] then m
  else
    let queued :=
      { m with
        pendingChunks := m.pendingChunks ++ [value]
        pendingChunkBytes := m.pendingChunkBytes + value.length }
    if defaultMaxChunkBatchCount ≤ queued.pendingChunks.length ∨
        defaultMaxChunkBatchBytes ≤ queued.pendingChunkBytes then
      queued.clearFlushTimer.flushPendingChunks
    else { queued with flushTimeout := true }

/-- What is left of `start` when the stream has ended or could not be read. -/
def finish (m : TransportMediaStream) : TransportMediaStream :=
  { m.clearFlushTimer.flushPendingChunks with reader := none }

end TransportMediaStream

/-! ### Sessions -/

/-- `started` are the streams that the video reader was started on, in this order, and `received`
are the batches that the worker has handled. -/
structure MediaSession (R : RingBuffer Bytes) where
  ready : Bool
  streams : List MediaStream
  videoStream : Option Nat
  audioStream : Option Nat
  media : TransportMediaStream
  worker : VideoReading R
  started : List Nat
  received : List (List Bytes)

/-- `credit` says whether a stream can be opened, `canWrite` and `ok` what the stream answers. -/
inductive MediaStep where
  | sessionReady (canOpen videoCredit audioCredit : Bool)
  | canCreate (videoCredit audioCredit : Bool)
  | submitVideo (frame : VideoFrame) (canWrite ok : Bool)
  | submitAudio (frame : AudioFrame) (canWrite ok : Bool)
  | chunk (stream length : Nat)
  | ended (stream : Nat)
  | timer
  | work (browser : VideoBrowser)
  | decoderError

/-- Without credit there is no stream. -/
def openOutgoingUnidirectionalStream (streams : List MediaStream) (video credit : Bool) :
    List MediaStream × Option Nat :=
  if credit then (streams ++ [.opened video], some streams.length) else (streams, none)

namespace MediaSession

def start (R : RingBuffer Bytes) : MediaSession R where
  ready := false
  streams := []
  videoStream := none
  audioStream := none
  media := .create
  worker := .start R
  started := []
  received := []

/-! The server. -/

def onCanCreateNewOutgoingUnidirectionalStream (s : MediaSession R) (videoCredit audioCredit : Bool) :
    MediaSession R :=
  let video := openOutgoingUnidirectionalStream s.streams true videoCredit
  let audio := openOutgoingUnidirectionalStream video.1 false audioCredit
  { s with streams := audio.1, videoStream := video.2, audioStream := audio.2 }

def onSessionReady (s : MediaSession R) (canOpen videoCredit audioCredit : Bool) : MediaSession R :=
  if canOpen then
    { s with ready := true }.onCanCreateNewOutgoingUnidirectionalStream videoCredit audioCredit
  else { s with ready := true }

/-- `Writev` on the stream that a pointer is for. -/
def submit (s : MediaSession R) (pointer : Option Nat) (frames : List VideoFrame) (packet : Bytes)
    (canWrite ok : Bool) : MediaSession R :=
  match pointer with
  | none => s
  | some i =>
      if canWrite && ok then { s with streams := s.streams.modify i (·.write frames packet) } else s

/-! The client. -/

/-- `TransportMediaStream.start`: a second reader is cancelled. -/
def startVideo (s : MediaSession R) (i : Nat) (st : MediaStream) (initialChunk : Bytes) :
    MediaSession R :=
  match s.media.reader with
  | some _ => { s with streams := s.streams.set i { st with reader := .cancelled } }
  | none =>
      { s with
        streams := s.streams.set i { st with reader := .video }
        media := { s.media with reader := some i }.queueChunk initialChunk
        started := s.started ++ [i] }

/-- A chunk of a stream, after which it is `st`. -/
def receiveChunk (s : MediaSession R) (i : Nat) (st : MediaStream) (value : Bytes) :
    Option (MediaSession R) :=
  match st.reader with
  | .routing =>
      if value = [] then some { s with streams := s.streams.set i st }
      else
        match routeIncomingStream value with
        | some .video => some (s.startVideo i st value)
        | some .audio => some { s with streams := s.streams.set i { st with reader := .audio } }
        | none => some { s with streams := s.streams.set i { st with reader := .cancelled } }
  | .video =>
      some { s with streams := s.streams.set i st, media := s.media.queueChunk value }
  | .audio => some { s with streams := s.streams.set i st }
  | .cancelled => none
  | .closed => none

def streamEnded (s : MediaSession R) (i : Nat) (st : MediaStream) : Option (MediaSession R) :=
  match st.reader with
  | .routing => some { s with streams := s.streams.set i { st with reader := .closed } }
  | .video =>
      some { s with
        streams := s.streams.set i { st with reader := .closed }
        media := s.media.finish }
  | .audio => some { s with streams := s.streams.set i { st with reader := .closed } }
  | .cancelled => none
  | .closed => none

def next (s : MediaSession R) : MediaStep → Option (MediaSession R)
  | .sessionReady canOpen videoCredit audioCredit =>
      if s.ready then none else some (s.onSessionReady canOpen videoCredit audioCredit)
  | .canCreate videoCredit audioCredit =>
      some (s.onCanCreateNewOutgoingUnidirectionalStream videoCredit audioCredit)
  | .submitVideo frame canWrite ok =>
      some (s.submit s.videoStream [frame] (submitVideoDataToStream frame) canWrite ok)
  | .submitAudio frame canWrite ok =>
      some (s.submit s.audioStream [] (submitAudioDataToStream frame) canWrite ok)
  | .chunk i length =>
      s.streams[i]?.bind fun st => (st.readChunk length).bind fun next =>
        s.receiveChunk i next.2 next.1
  | .ended i => s.streams[i]?.bind (s.streamEnded i)
  | .timer =>
      if s.media.flushTimeout then some { s with media := s.media.clearFlushTimer.flushPendingChunks }
      else none
  | .work browser =>
      match s.media.posted with
      | [] => none
      | batch :: posted =>
          some { s with
            media := { s.media with posted := posted }
            worker := s.worker.handleChunkBatch browser batch
            received := s.received ++ [batch] }
  | .decoderError =>
      if s.worker.decoding.worker.decoder ∧ s.worker.decoding.state = .configured then
        some { s with worker := { s.worker with decoding := { s.worker.decoding with state := .closed } } }
      else none

/-- The runs in which each step is allowed. -/
def system (R : RingBuffer Bytes) (allowed : MediaSession R → MediaStep → Prop) :
    Labelled (MediaSession R) MediaStep where
  init s := s = start R
  step s step t := allowed s step ∧ s.next step = some t

/-! ### What the worker is to take off -/

def arrivedOn (s : MediaSession R) (i : Nat) : List VideoFrame :=
  s.streams[i]?.elim [] MediaStream.arrived

/-- The packets that have arrived as a whole on some streams, one stream after the other. -/
def packetsOf (s : MediaSession R) (order : List Nat) : List (VideoMessageHeader × Bytes) :=
  (order.flatMap s.arrivedOn).map VideoReading.packet

/-- Everything that was received has been handled. -/
def Settled (s : MediaSession R) : Prop := s.media.pendingChunks = [] ∧ s.media.posted = []

/-- Each frame is taken off once, with those of its stream in order, and no stream makes a
difference to another. -/
structure Extracts (s : MediaSession R) (order : List Nat) : Prop where
  once : order.Nodup
  every : ∀ i, s.arrivedOn i ≠ [] → i ∈ order
  inOrder : s.worker.extracted <+: s.packetsOf order
  all : s.Settled → s.worker.extracted = s.packetsOf order

/-- A video stream that now comes first to the reader finds it free, and all before it have
ended at the end of a packet. -/
def Free (s : MediaSession R) : Prop :=
  s.media.reader = none ∧ ∀ i ∈ s.started, ∀ st ∈ s.streams[i]?, st.AtBoundary

instance (s : MediaSession R) : Decidable s.Free := inferInstanceAs (Decidable (_ ∧ _))

/-- No video stream is started in the way of another, and the decoder accepts everything. -/
def Orderly (s : MediaSession R) : MediaStep → Prop
  | .chunk i length =>
      ∀ st ∈ s.streams[i]?, st.reader = .routing → st.video = true → 0 < length → s.Free
  | .work browser => VideoReading.Accepts browser
  | .decoderError => False
  | _ => True

end MediaSession

end Stratus.Frontend
