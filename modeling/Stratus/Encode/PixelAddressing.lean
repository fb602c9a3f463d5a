import Stratus.Encode.FrameBounds

/-! Which pixel of the client the encoder takes for a pixel of the session.  The stride of a frame is
computed from the width of its buffer, whatever the client has declared. -/
namespace Stratus.Encode

open Stratus.Lib Stratus.Capture
open Capture.CaptureSession (Op Backed Pictured quiet unsigned)

/-- The size that `dma_encode_video_frame` allocates, computed as a `uint32_t`. -/
def pixelSize (d : DmaBuffer) : Nat := unsigned d.width * unsigned d.height * 4 % 2 ^ 32

/-- The image that `egl_capture_dmabuf_frame` reads back to `pixel_data`, row after row, if there is
room for it. -/
def readBack (d : DmaBuffer) (pixelData : Int) : Option Raster :=
  if unsigned d.width * unsigned d.height * 4 ≤ pixelSize d then
    some
      { base := pixelData
        stride := unsigned d.width * 4
        width := unsigned d.width
        height := unsigned d.height }
  else none

/-- Whether it succeeds: `glReadPixels` takes the sizes as `int`, and none that is negative. -/
def eglCaptureDmabufFrame (d : DmaBuffer) (answers : Bool) : Bool :=
  answers && decide (0 ≤ cInt d.width ∧ 0 ≤ cInt d.height)

def dmaEncodeVideoFrame (width height : Nat) (d : DmaBuffer) (stride : Int) (malloc : Option Int)
    (answers : Bool) : Option Raster :=
  match malloc with
  | none => none
  | some pixelData =>
      if eglCaptureDmabufFrame d answers then
        encodeVideoFrame width height (some pixelData) stride 1
      else none

/-- Runs of the Capture module. -/
def captures (width height : Nat) : Labelled CaptureSession Op where
  init c := c = .start width height
  step c op c' := c.Allowed op ∧ c.perform op = .ok c'

/-- Each pixel of the session is the pixel of a buffer that lies at this offset in the pool and has
this stride. -/
def ShmExact (c : CaptureSession) (f : Frame) (p : Pool) (offset stride : Int) : Prop :=
  ∀ picture ∈ encodeVideoFrame c.width c.height f.shmData f.stride 0,
    ∀ x y, x < c.width → y < c.height → picture.addr x y = p.p + offset + y * stride + 4 * x

/-- Each pixel of the session is the pixel of the image that was read back. -/
def DmaExact (c : CaptureSession) (f : Frame) (d : DmaBuffer) : Prop :=
  ∀ pixelData, ∀ picture ∈ dmaEncodeVideoFrame c.width c.height d f.stride (some pixelData) true,
    ∀ x y, x < c.width → y < c.height →
      ∃ image ∈ readBack d pixelData, picture.addr x y = image.addr x y

/-- The pixels of a queued frame: those of a shm buffer are the client's if and only if there is one
row at most or the client has declared the stride that the module computes, and those of a dma buffer
are the ones that were read back if and only if the image takes less than 4 GiB, or is refused. -/
structure Addressed (trace : List Op) (c : CaptureSession) (f : Frame) (b : Buffer) : Prop where
  backed : Backed trace c f b
  shm : ∀ buf ∈ b.shmBuf, ∃ p offset, c.heap.objs buf.pool = some (.pool p) ∧
    AskedShm trace offset b.width b.height buf.stride ∧ f.shmData = some (p.p + offset) ∧
    (ShmExact c f p offset buf.stride ↔
      c.width = 0 ∨ c.height ≤ 1 ∨ buf.stride = cInt (b.width * 4))
  dma : ∀ d ∈ b.dmaBuf, f.dmaData = some d ∧ f.shmData = none ∧
    (DmaExact c f d ↔ (cInt b.width < 0 ∨ cInt b.height < 0) ∨ c.width = 0 ∨ c.height = 0 ∨
      unsigned b.width * unsigned b.height * 4 < 2 ^ 32)

variable {trace : List Op} {c : CaptureSession} {f : Frame} {b : Buffer} {width height : Nat}

theorem captures_pictured (h : (captures width height).Run trace c) : c.Ready ∧ Pictured trace c := by
  refine h.invariant (fun trace c => c.Ready ∧ Pictured trace c) ?_ ?_
  · rintro _ rfl
    exact ⟨CaptureSession.start_ready _ _, CaptureSession.start_pictured _ _⟩
  · rintro trace c op c' ⟨hready, hpictured⟩ ⟨hallowed, hok⟩
    exact ⟨hready.perform hallowed hok, hpictured.perform hready hallowed hok⟩

theorem shmExact_iff {p : Pool} {offset stride : Int} (hdata : f.shmData = some (p.p + offset))
    (hstride : f.stride = cInt (b.width * 4)) :
    ShmExact c f p offset stride ↔ c.width = 0 ∨ c.height ≤ 1 ∨ stride = cInt (b.width * 4) := by
  let picture : Raster := ⟨p.p + offset, f.stride, c.width, c.height⟩
  let declared : Raster := ⟨p.p + offset, stride, c.width, c.height⟩
  have hreads : encodeVideoFrame c.width c.height f.shmData f.stride 0 = some picture := by
    rw [hdata]
    rfl
  have hagree : (∀ x y, x < c.width → y < c.height → picture.addr x y = declared.addr x y) ↔
      c.width = 0 ∨ c.height ≤ 1 ∨ f.stride = stride := Raster.agree_iff picture declared rfl _ _
  unfold ShmExact
  rw [hreads, eq_comm (a := stride), ← hstride]
  simp only [Option.mem_def, Option.some.injEq, forall_eq']
  exact hagree

/-- The sizes that `wl_surface_commit` accepts are not smaller than those of the session. -/
theorem le_of_accepts (h : c.accepts b = true) :
    c.width ≤ unsigned b.width ∧ c.height ≤ unsigned b.height := by
  unfold CaptureSession.accepts at h
  simp only [Bool.and_eq_true, decide_eq_true_eq] at h
  exact ⟨h.1.1.1, h.1.1.2⟩

/-- Unless the product overflows, and it does not when two rows take less than 4 GiB. -/
theorem cInt_unsigned {width : Int} (h : unsigned width * 4 < 2 ^ 31) :
    cInt (width * 4) = unsigned width * 4 := by
  have hnat : (unsigned width : Int) = width % 2 ^ 32 := by
    unfold unsigned
    omega
  have hmod : (unsigned width * 4 : Int) % 2 ^ 32 = width * 4 % 2 ^ 32 := by
    rw [hnat]
    omega
  have hsmall : cInt (unsigned width * 4) = unsigned width * 4 := cInt_eq (by omega) (by omega)
  rw [← hsmall]
  unfold cInt
  rw [← Int.emod_bmod, ← Int.emod_bmod (x := (unsigned width * 4 : Int))]
  exact congrArg (Int.bmod · _) hmod.symm

/-- What comes out when the capture succeeds. -/
theorem dmaEncodeVideoFrame_true (d : DmaBuffer) (stride pixelData : Int) :
    dmaEncodeVideoFrame width height d stride (some pixelData) true =
      if cInt d.width < 0 ∨ cInt d.height < 0 then none
      else some { base := pixelData, stride := stride, width := width, height := height } := by
  unfold dmaEncodeVideoFrame eglCaptureDmabufFrame
  rw [Bool.true_and]
  by_cases hrefused : cInt d.width < 0 ∨ cInt d.height < 0
  · rw [if_pos hrefused]
    exact if_neg (by rw [decide_eq_true_eq]; omega)
  · rw [if_neg hrefused]
    exact if_pos (by rw [decide_eq_true_eq]; omega)

/-- There is room for the image if and only if its size has not overflowed. -/
theorem readBack_eq (d : DmaBuffer) (pixelData : Int) :
    readBack d pixelData = if unsigned d.width * unsigned d.height * 4 < 2 ^ 32 then
      some ⟨pixelData, unsigned d.width * 4, unsigned d.width, unsigned d.height⟩ else none := by
  unfold readBack pixelSize
  by_cases hsmall : unsigned d.width * unsigned d.height * 4 < 2 ^ 32
  · rw [Nat.mod_eq_of_lt hsmall, if_pos (Nat.le_refl _), if_pos hsmall]
  · have hlt := Nat.mod_lt (unsigned d.width * unsigned d.height * 4) (Nat.two_pow_pos 32)
    rw [if_neg (by omega), if_neg hsmall]

theorem dmaExact_iff {d : DmaBuffer} (haccepts : c.accepts b = true)
    (hstride : f.stride = cInt (b.width * 4)) (hwidth : d.width = b.width)
    (hheight : d.height = b.height) :
    DmaExact c f d ↔ (cInt b.width < 0 ∨ cInt b.height < 0) ∨ c.width = 0 ∨ c.height = 0 ∨
      unsigned b.width * unsigned b.height * 4 < 2 ^ 32 := by
  obtain ⟨-, hhigh⟩ := le_of_accepts haccepts
  unfold DmaExact
  simp only [dmaEncodeVideoFrame_true, readBack_eq, hwidth, hheight]
  by_cases hrefused : cInt b.width < 0 ∨ cInt b.height < 0
  · simp only [hrefused, if_true]
    exact ⟨fun _ => .inl trivial, fun _ _ _ => nofun⟩
  · simp only [hrefused, if_false, false_or]
    by_cases hsmall : unsigned b.width * unsigned b.height * 4 < 2 ^ 32
    · simp only [hsmall, if_true, or_true, iff_true]
      rintro pixelData _ ⟨⟩ x y hx hy
      let picture : Raster := ⟨pixelData, f.stride, c.width, c.height⟩
      let image : Raster :=
        ⟨pixelData, unsigned b.width * 4, unsigned b.width, unsigned b.height⟩
      refine ⟨image, rfl, (Raster.agree_iff picture image rfl c.width c.height).mpr ?_ x y hx hy⟩
      refine .inr (Nat.lt_or_ge 1 c.height |>.symm.imp_right fun hrows => ?_)
      -- there are two rows, so that one takes less than 2 GiB
      have hrow : unsigned b.width * 2 ≤ unsigned b.width * unsigned b.height :=
        Nat.mul_le_mul_left _ (hrows.trans_le hhigh)
      exact hstride.trans (cInt_unsigned (by omega))
    · simp only [hsmall, if_false, or_false]
      constructor
      · intro h
        by_contra hsome
        obtain ⟨image, himage, -⟩ := h 0 _ rfl 0 0 (by omega) (by omega)
        cases himage
      · rintro hnone _ _ - x y hx hy
        omega

/-- In every run, for each queued frame. -/
theorem pixels_addressed (width height : Nat) (trace : List Op) (c : CaptureSession)
    (hc : (captures width height).Run trace c) (f : Frame) (hf : f ∈ c.queue) :
    ∃ b, Addressed trace c f b := by
  obtain ⟨hready, hpictured⟩ := captures_pictured hc
  obtain ⟨b, hbacked⟩ := hpictured.backed hready hf
  have hstride : f.stride = cInt (b.width * 4) := congrArg Frame.stride hbacked.frame
  have hshm : f.shmData = b.shmBuf.map ShmBuffer.p := congrArg Frame.shmData hbacked.frame
  have hdma : f.dmaData = if b.shmBuf.isSome then none else b.dmaBuf :=
    congrArg Frame.dmaData hbacked.frame
  refine ⟨b, hbacked, fun buf hbuf => ?_, fun d hd => ?_⟩
  · obtain ⟨p, offset, id, hpool, -, hp, hasked⟩ := hbacked.shm buf hbuf
    rw [Option.mem_def.mp hbuf, Option.map_some, hp] at hshm
    exact ⟨p, offset, hpool, hasked, hshm, shmExact_iff hshm hstride⟩
  · have hnone : b.shmBuf = none := by
      have hbacking := hbacked.backing
      rw [Option.mem_def.mp hd] at hbacking
      cases hbuf : b.shmBuf with
      | none => rfl
      | some buf =>
          rw [hbuf] at hbacking
          exact absurd rfl hbacking
    rw [hnone, Option.mem_def.mp hd] at hdma
    rw [hnone] at hshm
    obtain ⟨hwidth, hheight⟩ := hbacked.dma d hd
    exact ⟨hdma, hshm, dmaExact_iff hbacked.accepted hstride hwidth hheight⟩

/-- A buffer of eight rows of eight pixels, each row padded to 64 bytes. -/
def padded : List Op :=
  [.connect 0, .message 0 quiet (.createPool 2 512),
    .message 0 quiet (.createBuffer 2 3 0 8 8 64 0), .message 0 quiet (.createSurface 4),
    .message 0 quiet (.surfaceAttach 4 3 0 0), .message 0 quiet (.surfaceCommit 4)]

theorem padded_run : ∃ c f p, (captures 8 8).Run padded c ∧ c.queue = [f] ∧
    c.heap.objs 0 = some (.pool p) ∧ f.shmData = some p.p ∧ f.stride = 32 ∧ c.width = 8 ∧
    c.height = 8 := by
  have h₀ : (captures 8 8).Run [] (.start 8 8) := .start rfl
  have h₁ : (captures 8 8).Run (padded.take 1) _ := h₀.next ⟨rfl, rfl⟩
  have h₂ : (captures 8 8).Run (padded.take 2) _ := h₁.next ⟨⟨rfl, by decide, by decide, rfl⟩, rfl⟩
  have h₃ : (captures 8 8).Run (padded.take 3) _ :=
    h₂.next ⟨⟨rfl, ⟨rfl, rfl⟩, by decide, by decide, rfl⟩, rfl⟩
  have h₄ : (captures 8 8).Run (padded.take 4) _ := h₃.next ⟨⟨rfl, by decide, by decide, rfl⟩, rfl⟩
  have h₅ : (captures 8 8).Run (padded.take 5) _ := h₄.next ⟨⟨rfl, ⟨rfl, rfl⟩, .inr rfl⟩, rfl⟩
  have h₆ : (captures 8 8).Run padded _ := h₅.next ⟨⟨rfl, rfl, rfl⟩, rfl⟩
  exact ⟨_, _, _, h₆, rfl, rfl, rfl, rfl, rfl, rfl⟩

theorem pixels_addressed_padded : ∃ c f, (captures 8 8).Run padded c ∧ c.queue = [f] ∧
    ∃ b, Addressed padded c f b := by
  obtain ⟨c, f, p, hrun, hqueue, -⟩ := padded_run
  refine ⟨c, f, hrun, hqueue, pixels_addressed _ _ _ _ hrun f ?_⟩
  rw [hqueue]
  exact List.mem_singleton_self f

/-- The second row is taken from the middle of the padding of the first. -/
theorem padded_not_exact : ∃ c f p, (captures 8 8).Run padded c ∧ c.queue = [f] ∧
    c.heap.objs 0 = some (.pool p) ∧ f.shmData = some p.p ∧ AskedShm padded 0 8 8 64 ∧
    ¬ ShmExact c f p 0 64 := by
  obtain ⟨c, f, p, hrun, hqueue, hpool, hdata, hstride, hwidth, hheight⟩ := padded_run
  refine ⟨c, f, p, hrun, hqueue, hpool, hdata, ?_, fun h => ?_⟩
  · exact ⟨2, 3, 0, 0, quiet, List.mem_of_getElem? (i := 2) rfl⟩
  · have hpixel := h _ (by rw [hdata]; rfl) 0 1 (by omega) (by omega)
    rw [Raster.addr, hstride] at hpixel
    dsimp only at hpixel
    omega

end Stratus.Encode
