import Stratus.Frontend.MediaFraming

/-! `EncodeUtils.c`: the packets of the encoder on their way to the client, and which of them are
key frames. -/
namespace Stratus.Encode

open Stratus.Transport Stratus.Frontend

abbrev Bytes := List UInt8

structure AVPacket where
  flags : UInt32
  data : Bytes
  fits : data.length < 2 ^ 31

def avPktFlagKey : UInt32 := 1

/-- The bit of a key frame is set. -/
def AVPacket.key (packet : AVPacket) : Bool := packet.flags &&& avPktFlagKey ≠ 0

def averrorEagain : Int := -11

def averrorEof : Int := -541478725

/-- A packet that `avcodec_receive_packet` has returned, and whether `malloc` and `rbuf_push`
succeed for it. -/
structure Received where
  packet : AVPacket
  mallocFrame : Bool
  mallocData : Bool
  push : Bool

/-- The result of `avcodec_send_frame`, then the packets, and the result that ends them. -/
structure Answers where
  send : Int
  received : List Received
  last : Int
  last_neg : last < 0

/-- What is left behind: the packets that were received, the frames that are in the queue, and
the result. -/
structure Output where
  returned : List Received
  pushed : List VideoFrame
  ret : Int

/-- `flags && AV_PKT_FLAG_KEY` is a logical and. -/
def toFrame (packet : AVPacket) : VideoFrame where
  data := packet.data
  isDescription := packet.flags ≠ 0 && avPktFlagKey ≠ 0
  fits := packet.fits

/-- The loop of `avcodec_send_and_receive`. -/
def receivePackets (last : Int) : List Received → Output
  | [] =>
      { returned := []
        pushed := []
        ret := if last = averrorEagain ∨ last = averrorEof then 0 else last }
  | received :: rest =>
      if !received.mallocFrame then ⟨[received], [], -1⟩
      else if !received.mallocData then ⟨[received], [], -1⟩
      else if !received.push then ⟨[received], [], -1⟩
      else
        let output := receivePackets last rest
        { returned := received :: output.returned
          pushed := toFrame received.packet :: output.pushed
          ret := output.ret }

def avcodecSendAndReceive (answers : Answers) : Output :=
  if answers.send < 0 then ⟨[], [], answers.send⟩
  else receivePackets answers.last answers.received

/-- What two calls leave behind. -/
def Output.append (first second : Output) : Output where
  returned := first.returned ++ second.returned
  pushed := first.pushed ++ second.pushed
  ret := second.ret

/-- `encode_main` encodes one frame after the other, and at the end or after an error
`encoder_teardown` flushes the encoder. -/
def encodeMain (flush : Answers) : List Answers → Output
  | [] => avcodecSendAndReceive flush
  | answers :: rest =>
      let output := avcodecSendAndReceive answers
      if output.ret ≠ 0 then output.append (avcodecSendAndReceive flush)
      else output.append (encodeMain flush rest)

/-! ### What is pushed -/

/-- The packet has come into the queue. -/
def Received.stored (received : Received) : Bool :=
  received.mallocFrame && received.mallocData && received.push

def framesOf (returned : List Received) : List VideoFrame :=
  (returned.filter Received.stored).map fun received => toFrame received.packet

theorem receivePackets_pushed (last : Int) (received : List Received) :
    (receivePackets last received).pushed = framesOf (receivePackets last received).returned := by
  induction received with
  | nil => rfl
  | cons received rest ih =>
      obtain ⟨packet, mallocFrame, mallocData, push⟩ := received
      cases mallocFrame with
      | false => rfl
      | true =>
          cases mallocData with
          | false => rfl
          | true =>
              cases push with
              | false => rfl
              | true => exact congrArg (List.cons (toFrame packet)) ih

theorem avcodecSendAndReceive_pushed (answers : Answers) :
    (avcodecSendAndReceive answers).pushed = framesOf (avcodecSendAndReceive answers).returned := by
  unfold avcodecSendAndReceive
  split
  · rfl
  · exact receivePackets_pushed _ _

theorem Output.append_pushed {first second : Output} (hfirst : first.pushed = framesOf first.returned)
    (hsecond : second.pushed = framesOf second.returned) :
    (first.append second).pushed = framesOf (first.append second).returned := by
  simp only [Output.append, framesOf, List.filter_append, List.map_append, hfirst, hsecond]

theorem encodeMain_pushed (flush : Answers) (calls : List Answers) :
    (encodeMain flush calls).pushed = framesOf (encodeMain flush calls).returned := by
  induction calls with
  | nil => exact avcodecSendAndReceive_pushed flush
  | cons answers rest ih =>
      unfold encodeMain
      dsimp only
      split
      · exact Output.append_pushed (avcodecSendAndReceive_pushed answers)
          (avcodecSendAndReceive_pushed flush)
      · exact Output.append_pushed (avcodecSendAndReceive_pushed answers) ih

/-! ### What the client makes of it -/

variable {R : RingBuffer Bytes}

/-- The frame is a packet on the stream, and the worker takes it for a key frame as often as it
reads its header. -/
def PresentedAs (fifo : R.Fifo) (frame : VideoFrame) (key : Bool) : Prop :=
  ∀ (w : VideoStreamWorker R) (rest : Bytes), w.Good fifo →
    w.buffered fifo = submitVideoDataToStream frame ++ rest →
    ∃ header, w.peekVideoHeader = some header ∧ (header.chunkType = .key ↔ key = true)

theorem presentedAs_iff (fifo : R.Fifo) (frame : VideoFrame) (key : Bool) :
    PresentedAs fifo frame key ↔ frame.isDescription = key := by
  have hlength := length_submitVideo frame
  have htype : (videoHeader frame).chunkType = .key ↔ frame.isDescription = true := by
    change (if frame.isDescription then ChunkType.key else .delta) = .key ↔ _
    cases frame.isDescription <;> decide
  have hheader (w : VideoStreamWorker R) (rest : Bytes) (hgood : w.Good fifo)
      (hbytes : w.buffered fifo = submitVideoDataToStream frame ++ rest) :
      w.peekVideoHeader = some (videoHeader frame) := by
    apply hgood.peekVideoHeader
    · rw [hbytes, List.length_append]
      omega
    · rw [hbytes, List.take_append_of_le_length (by omega)]
  constructor
  · -- a worker that has just received the packet
    intro h
    obtain ⟨hwf, hbytes, hheaderBytes⟩ := pushChunks_spec
      (ChunkRingBuffer.WellFormed.create fifo videoMessageHeaderBytes) [submitVideoDataToStream frame]
    rw [ChunkRingBuffer.bytes_create, List.nil_append, List.flatten_singleton] at hbytes
    have hgood : VideoStreamWorker.Good fifo { (VideoStreamWorker.create R).handleInit true with
        frameBuffer := pushChunks (.create R videoMessageHeaderBytes)
          [submitVideoDataToStream frame] } := ⟨⟨rfl, rfl, rfl⟩, hwf, hheaderBytes, fun _ => rfl⟩
    obtain ⟨header, hpeek, hkey⟩ := h _ [] hgood (hbytes.trans (List.append_nil _).symm)
    rw [hheader _ [] hgood (hbytes.trans (List.append_nil _).symm)] at hpeek
    cases hpeek
    rw [htype] at hkey
    exact Bool.eq_iff_iff.mpr hkey
  · rintro rfl w rest hgood hbytes
    exact ⟨_, hheader w rest hgood hbytes, htype⟩

/-- All packets are in the queue, in order, and each is taken for a key frame when it is one. -/
def MarksKeyFrames (fifo : R.Fifo) (output : Output) : Prop :=
  output.pushed.map VideoFrame.data = output.returned.map (fun received => received.packet.data) ∧
    ∀ (i : Nat) frame received, output.pushed[i]? = some frame →
      output.returned[i]? = some received → PresentedAs fifo frame received.packet.key

theorem isDescription_eq_key (packet : AVPacket) :
    (toFrame packet).isDescription = packet.key ↔ packet.flags = 0 ∨ packet.key = true := by
  have hframe : (toFrame packet).isDescription = decide (packet.flags ≠ 0) := by
    change (decide (packet.flags ≠ 0) && decide (avPktFlagKey ≠ 0)) = _
    rw [show decide (avPktFlagKey ≠ 0) = true from rfl, Bool.and_true]
  rw [hframe]
  by_cases hzero : packet.flags = 0
  · have hkey : packet.key = false := by
      rw [AVPacket.key, hzero]
      rfl
    simp [hzero, hkey]
  · simp only [hzero, ne_eq, not_false_eq_true, decide_true, false_or]
    exact eq_comm

/-- It does so exactly when every packet came into the queue, and no packet without the bit has
another bit set. -/
theorem marksKeyFrames_iff (fifo : R.Fifo) (flush : Answers) (calls : List Answers) :
    MarksKeyFrames fifo (encodeMain flush calls) ↔
      ∀ received ∈ (encodeMain flush calls).returned,
        received.stored = true ∧ (received.packet.flags = 0 ∨ received.packet.key = true) := by
  have hpushed := encodeMain_pushed flush calls
  generalize encodeMain flush calls = output at hpushed
  have hall (hstored : ∀ received ∈ output.returned, received.stored = true) :
      output.pushed = output.returned.map fun received => toFrame received.packet := by
    rw [hpushed, framesOf, List.filter_eq_self.mpr hstored]
  constructor
  · rintro ⟨hdata, hkeys⟩
    have hlength := congrArg List.length hdata
    rw [List.length_map, List.length_map, hpushed, framesOf, List.length_map,
      List.length_filter_eq_length_iff] at hlength
    intro received hmem
    refine ⟨hlength received hmem, ?_⟩
    obtain ⟨i, hi⟩ := List.mem_iff_getElem?.mp hmem
    have hframe : output.pushed[i]? = some (toFrame received.packet) := by
      rw [hall hlength, List.getElem?_map, hi]
      rfl
    exact (isDescription_eq_key _).mp ((presentedAs_iff fifo _ _).mp (hkeys i _ _ hframe hi))
  · intro h
    have heq := hall fun received hmem => (h received hmem).1
    refine ⟨?_, ?_⟩
    · rw [heq, List.map_map]
      rfl
    · intro i frame received hframe hreceived
      rw [heq, List.getElem?_map, hreceived] at hframe
      cases hframe
      rw [presentedAs_iff, isDescription_eq_key]
      exact (h received (List.mem_of_getElem? hreceived)).2

/-- A packet that no other refers to: `AV_PKT_FLAG_DISPOSABLE` is set, `AV_PKT_FLAG_KEY` is not. -/
def disposable : Answers where
  send := 0
  received := [⟨⟨0x10, [5, 6, 7], by decide⟩, true, true, true⟩]
  last := averrorEagain
  last_neg := by decide

/-- It is presented as a key frame. -/
theorem disposable_presented_as_key :
    ¬ MarksKeyFrames (QueueRing.fifo Bytes) (encodeMain ⟨0, [], averrorEof, by decide⟩ [disposable]) := by
  rintro ⟨-, hkeys⟩
  have hkey := (presentedAs_iff _ _ _).mp (hkeys 0 _ _ rfl rfl)
  exact absurd hkey (by decide)

end Stratus.Encode
