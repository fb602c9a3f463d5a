import Stratus.Frontend.ChunkRingBuffer
import Stratus.Lib.Deframe

/-! The routing of incoming streams and the workers that take the packets of a media
stream apart: `streamRouter.ts`, `transportPacketWorker.ts`, `videoStream.worker.ts` and
`audioStream.worker.ts`.  Decoders accept every chunk; what they are given is `decoded`. -/
namespace Stratus.Frontend

open Stratus.Lib

/-- `TransportStreamType.Stream_Video` and so on. -/
def streamVideo : UInt8 := 1

def streamAudio : UInt8 := 2

/-- `VideoMessageType.Codec_Description`. -/
def codecDescription : UInt8 := 0

inductive Handler where
  | video
  | audio
deriving DecidableEq

/-- The handler that `routeIncomingStream` picks for the first chunk of a stream. -/
def routeIncomingStream (initialChunk : Bytes) : Option Handler :=
  match initialChunk.head? with
  | some streamType =>
      if streamType = streamVideo then some .video
      else if streamType = streamAudio then some .audio
      else none
  | none => none

/-- A byte of a `Uint8Array`, where it is read as a 32-bit integer. -/
def byteAt (buffer : Bytes) (offset : Nat) : UInt32 := (buffer.getD offset 0).toUInt32

def readU32BE (buffer : Bytes) (offset : Nat) : Nat :=
  ((byteAt buffer offset <<< 24) ||| (byteAt buffer (offset + 1) <<< 16) |||
    (byteAt buffer (offset + 2) <<< 8) ||| byteAt buffer (offset + 3)).toNat

inductive ChunkType where
  | key
  | delta
deriving DecidableEq

/-- An `EncodedVideoChunk` or `EncodedAudioChunk`. -/
structure EncodedChunk where
  type : ChunkType
  timestamp : Nat
  data : Bytes

variable {R : RingBuffer Bytes}

/-- The loop of `handleChunkBatch`. -/
def pushChunks (frameBuffer : ChunkRingBuffer R) (chunks : List Bytes) : ChunkRingBuffer R :=
  chunks.foldl ChunkRingBuffer.push frameBuffer

/-! ### Video -/

def videoMessageHeaderBytes : Nat := 6

def maxDecodeQueueSize : Nat := 2

def maxBufferedVideoBytes : Nat := 512 * 1024

/-- `Math.round(1_000_000 / 15)`. -/
def videoFrameDurationUs : Nat := 66667

structure VideoMessageHeader where
  streamType : UInt8
  messageType : UInt8
  chunkType : ChunkType
  payloadLen : Nat

/-- `canvas` is there once `init` was received, `ctx` if it has a 2D context.
`decodeQueueReads` counts how often the size of the decoder's queue was asked for. -/
structure VideoStreamWorker (R : RingBuffer Bytes) where
  frameBuffer : ChunkRingBuffer R
  isClosed : Bool
  canvas : Bool
  ctx : Bool
  decoder : Bool
  timestampUs : Nat
  droppingUntilKeyframe : Bool
  hasLoggedDrop : Bool
  decodeQueueReads : Nat
  decoded : List EncodedChunk

namespace VideoStreamWorker

def create (R : RingBuffer Bytes) : VideoStreamWorker R where
  frameBuffer := .create R videoMessageHeaderBytes
  isClosed := false
  canvas := false
  ctx := false
  decoder := false
  timestampUs := 0
  droppingUntilKeyframe := false
  hasLoggedDrop := false
  decodeQueueReads := 0
  decoded := []

def handleInit (w : VideoStreamWorker R) (context : Bool) : VideoStreamWorker R :=
  { w with canvas := true, ctx := context, frameBuffer := .create R videoMessageHeaderBytes }

/-- In a browser that has `VideoDecoder`. -/
def ensureDecoder (w : VideoStreamWorker R) : Option (VideoStreamWorker R) :=
  if w.decoder then some w
  else if !w.canvas || !w.ctx then none
  else some { w with decoder := true }

def peekVideoHeader (w : VideoStreamWorker R) : Option VideoMessageHeader :=
  w.frameBuffer.peek.map fun header =>
    { streamType := header.getD 0 0
      messageType := header.getD 1 0
      chunkType := if header.getD 1 0 = codecDescription then .key else .delta
      payloadLen := readU32BE header 2 }

/-- `decodeQueueSize` is what the decoder answers, question by question. -/
def applyCongestionControlBeforeFrame (decodeQueueSize : Nat → Nat) (w : VideoStreamWorker R) :
    VideoStreamWorker R :=
  if w.droppingUntilKeyframe then w
  else
    { w with
      decodeQueueReads := w.decodeQueueReads + 1
      droppingUntilKeyframe := maxDecodeQueueSize < decodeQueueSize w.decodeQueueReads ||
        maxBufferedVideoBytes < w.frameBuffer.byteLength
      hasLoggedDrop := w.hasLoggedDrop || maxDecodeQueueSize < decodeQueueSize w.decodeQueueReads ||
        maxBufferedVideoBytes < w.frameBuffer.byteLength }

def shouldDropForCongestion (w : VideoStreamWorker R) (header : VideoMessageHeader) : Bool :=
  w.droppingUntilKeyframe && header.chunkType ≠ .key

def recoverFromCongestionIfNeeded (w : VideoStreamWorker R) : VideoStreamWorker R :=
  if w.droppingUntilKeyframe then { w with timestampUs := 0, droppingUntilKeyframe := false } else w

def decodeFrame (w : VideoStreamWorker R) (header : VideoMessageHeader) (frameData : Bytes) :
    VideoStreamWorker R :=
  { w with
    timestampUs := w.timestampUs + videoFrameDurationUs
    decoded := w.decoded ++
      [{ type := header.chunkType, timestamp := w.timestampUs, data := frameData }] }

/-- What is done with a packet whose header has been taken off. -/
def processPayload (w : VideoStreamWorker R) (header : VideoMessageHeader) :
    Option (VideoStreamWorker R) :=
  if header.payloadLen < 1 then some w
  else if w.shouldDropForCongestion header then
    (w.frameBuffer.discard header.payloadLen).map fun frameBuffer =>
      { w with frameBuffer := frameBuffer }
  else
    (w.frameBuffer.take header.payloadLen).map fun result =>
      ({ w with frameBuffer := result.1 }.recoverFromCongestionIfNeeded).decodeFrame header result.2

/-- One round of the loop of `processFrames`; `none` when it ends. -/
def processFrame (decodeQueueSize : Nat → Nat) (w : VideoStreamWorker R) :
    Option (VideoStreamWorker R) :=
  if w.frameBuffer.byteLength < videoMessageHeaderBytes then none
  else
    match w.peekVideoHeader with
    | none => none
    | some header =>
        if w.frameBuffer.byteLength < videoMessageHeaderBytes + header.payloadLen then none
        else
          let w := w.applyCongestionControlBeforeFrame decodeQueueSize
          match w.frameBuffer.discard videoMessageHeaderBytes with
          | none => none
          | some frameBuffer => { w with frameBuffer := frameBuffer }.processPayload header

/-- Every round takes a header, so there are no more rounds than bytes. -/
def processFrames (decodeQueueSize : Nat → Nat) (w : VideoStreamWorker R) : VideoStreamWorker R :=
  match w.ensureDecoder with
  | none => w
  | some w => drain (processFrame decodeQueueSize) w.frameBuffer.byteLength w

def handleChunkBatch (decodeQueueSize : Nat → Nat) (w : VideoStreamWorker R) (chunks : List Bytes) :
    VideoStreamWorker R :=
  if w.isClosed then w
  else { w with frameBuffer := pushChunks w.frameBuffer chunks }.processFrames decodeQueueSize

end VideoStreamWorker

/-! ### Audio -/

def audioMessageHeaderBytes : Nat := 5

def audioFrameDurationUs : Nat := 20000

structure AudioStreamWorker (R : RingBuffer Bytes) where
  frameBuffer : ChunkRingBuffer R
  isClosed : Bool
  workletPort : Bool
  decoder : Bool
  streamType : Option UInt8
  timestampUs : Nat
  decoded : List EncodedChunk

namespace AudioStreamWorker

def create (R : RingBuffer Bytes) : AudioStreamWorker R where
  frameBuffer := .create R audioMessageHeaderBytes
  isClosed := false
  workletPort := false
  decoder := false
  streamType := none
  timestampUs := 0
  decoded := []

def handleInit (w : AudioStreamWorker R) : AudioStreamWorker R := { w with workletPort := true }

/-- The stream type and the length of the payload. -/
def peekAudioHeader (w : AudioStreamWorker R) : Option (UInt8 × Nat) :=
  w.frameBuffer.peek.map fun header => (header.getD 0 0, readU32BE header 1)

/-- What is done with a packet whose header has been taken off. -/
def processPayload (w : AudioStreamWorker R) (streamType : UInt8) (payloadLen : Nat) :
    Option (AudioStreamWorker R) :=
  if payloadLen < 1 then some w
  else
    let w := { w with streamType := some (w.streamType.getD streamType) }
    if w.streamType ≠ some streamType then
      (w.frameBuffer.discard payloadLen).map fun frameBuffer => { w with frameBuffer := frameBuffer }
    else
      (w.frameBuffer.take payloadLen).map fun result =>
        { w with
          frameBuffer := result.1
          timestampUs := w.timestampUs + audioFrameDurationUs
          decoded := w.decoded ++ [{ type := .key, timestamp := w.timestampUs, data := result.2 }] }

/-- One round of the loop of `processFrames`; `none` when it ends. -/
def processFrame (w : AudioStreamWorker R) : Option (AudioStreamWorker R) :=
  if w.frameBuffer.byteLength < audioMessageHeaderBytes then none
  else
    match w.peekAudioHeader with
    | none => none
    | some (streamType, payloadLen) =>
        if w.frameBuffer.byteLength < audioMessageHeaderBytes + payloadLen then none
        else
          match w.frameBuffer.discard audioMessageHeaderBytes with
          | none => none
          | some frameBuffer =>
              { w with frameBuffer := frameBuffer }.processPayload streamType payloadLen

/-- In a browser that has `AudioDecoder`. -/
def processFrames (w : AudioStreamWorker R) : AudioStreamWorker R :=
  drain processFrame w.frameBuffer.byteLength { w with decoder := true }

def handleChunkBatch (w : AudioStreamWorker R) (chunks : List Bytes) : AudioStreamWorker R :=
  if w.isClosed then w
  else { w with frameBuffer := pushChunks w.frameBuffer chunks }.processFrames

end AudioStreamWorker

end Stratus.Frontend
