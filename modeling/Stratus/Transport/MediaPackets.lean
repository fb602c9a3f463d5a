import Mathlib.Algebra.GroupWithZero.Nat
import Mathlib.Data.List.Basic

/-! The packets of `StratusWebTransportSessionVisitor.cpp`. -/
namespace Stratus.Transport

abbrev Bytes := List UInt8

inductive TransportStreamType where
  | control
  | video
  | audio
  | input

def TransportStreamType.toByte : TransportStreamType → UInt8
  | .control => 0
  | .video => 1
  | .audio => 2
  | .input => 3

inductive VideoMessageType where
  | description
  | payload

def VideoMessageType.toByte : VideoMessageType → UInt8
  | .description => 0
  | .payload => 1

/-- The bytes in memory of an `int` that `htonl` has been applied to. -/
def htonl (n : Nat) : Bytes :=
  [UInt8.ofNat (n / 2 ^ 24), UInt8.ofNat (n / 2 ^ 16), UInt8.ofNat (n / 2 ^ 8), UInt8.ofNat n]

/-- A `struct video_transport_queue_frame`; its length is an `int`. -/
structure VideoFrame where
  data : Bytes
  isDescription : Bool
  fits : data.length < 2 ^ 31

structure AudioFrame where
  data : Bytes
  fits : data.length < 2 ^ 31

def submitVideoDataToStream (frame : VideoFrame) : Bytes :=
  [TransportStreamType.video.toByte,
    if frame.isDescription then VideoMessageType.description.toByte
    else VideoMessageType.payload.toByte] ++ htonl frame.data.length ++ frame.data

def submitAudioDataToStream (frame : AudioFrame) : Bytes :=
  [TransportStreamType.audio.toByte] ++ htonl frame.data.length ++ frame.data

end Stratus.Transport
