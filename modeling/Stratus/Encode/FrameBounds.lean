import Stratus.Capture.QueuedFrames
import Stratus.Lib.Raster

/-! Whether the encoder reads shm frames within the memory that the Capture module has mapped.  A
client may make a pool larger; the module does not handle that request. -/
namespace Stratus.Encode

open Stratus.Lib Stratus.Capture
open Capture.CaptureSession (Op Env Backed Pictured quiet)

/-- The picture that `encode_video_frame` passes to the converter; a pointer that is `NULL` is
`none`. -/
def encodeVideoFrame (width height : Nat) (argbBuffer : Option Int) (stride : Int) (bufType : Nat) :
    Option Raster :=
  match argbBuffer with
  | none => none
  | some base =>
      if bufType = 0 ∨ bufType = 1 then
        some { base := base, stride := stride, width := width, height := height }
      else none

/-- What a client does. -/
inductive ShmOp where
  | plain (op : Op)
  | resize (k : Nat) (env : Env) (sender : Nat) (size : Int)

/-- What this is to the Capture module. -/
def ShmOp.toOp : ShmOp → Op
  | .plain op => op
  | .resize k env _ _ => .message k env (.other none)

/-- The Capture module, and how large each pool is for its client. -/
structure ShmRun where
  capture : CaptureSession
  sizes : Addr → Int

namespace ShmRun

def start (width height : Nat) : ShmRun where
  capture := .start width height
  sizes _ := 0

/-- The pool with this id, if any, has a size from now on. -/
def noteSize (r : ShmRun) (c : CaptureSession) (k id : Nat) (size : Int) : Addr → Int :=
  match (c.objData k).lookup id with
  | some a => fun x => if x = a then size else r.sizes x
  | none => r.sizes

def next (r : ShmRun) (op : ShmOp) : Except Fault ShmRun := do
  let c ← r.capture.perform op.toOp
  match op with
  | .plain (.message k _ (.createPool id size)) =>
      return { capture := c, sizes := r.noteSize c k id size }
  | .resize k _ sender size => return { capture := c, sizes := r.noteSize c k sender size }
  | .plain _ => return { r with capture := c }

/-- A pool has a size and does not get smaller; a buffer lies in the pool as it is at that time. -/
def Conforms (r : ShmRun) : ShmOp → Prop
  | .plain (.message _ _ (.createPool _ size)) => 0 < size
  | .plain (.message k _ (.createBuffer sender _ offset width height stride _)) =>
      (0 ≤ offset ∧ 0 < width ∧ 0 < height ∧ 0 ≤ stride) ∧
        ∀ a ∈ (r.capture.objData k).lookup sender, offset + stride * height ≤ r.sizes a
  | .resize k _ sender size => r.capture.Live k sender .wlShmPool ∧
      ∀ a ∈ (r.capture.objData k).lookup sender, r.sizes a < size
  | .plain _ => True

def system (width height : Nat) : Labelled ShmRun ShmOp where
  init r := r = start width height
  step r op r' := (r.capture.Allowed op.toOp ∧ r.Conforms op) ∧ r.next op = .ok r'

/-- `mmap` maps whole pages. -/
def pageSize : Int := 4096

def mappedSize (size : Int) : Int := (size + (pageSize - 1)) / pageSize * pageSize

/-- The stride has not overflowed, and what the encoder reads is mapped. -/
def InBounds (r : ShmRun) (f : Frame) (b : Buffer) (p : Pool) : Prop :=
  f.stride = b.width * 4 ∧
    ∀ picture ∈ encodeVideoFrame r.capture.width r.capture.height f.shmData f.stride 0,
      picture.Within p.p (mappedSize p.size)

/-- The rows of the session, at four bytes for each pixel of the buffer, end within the pages of the
size that the pool was created with. -/
def Fits (r : ShmRun) (offset width size : Int) : Prop :=
  4 * width < 2 ^ 31 ∧ (r.capture.width = 0 ∨ r.capture.height = 0 ∨
    offset + ((r.capture.height : Int) - 1) * (4 * width) + 4 * r.capture.width ≤ mappedSize size)

/-- A frame of a shm buffer that was asked for, in a pool that was asked for and is mapped. -/
structure OfPool (r : ShmRun) (trace : List Op) (f : Frame) (b : Buffer) (p : Pool) (offset : Int) :
    Prop where
  buffer : r.capture.heap.objs f.buf = some (.buffer b)
  pool : ∃ buf, b.shmBuf = some buf ∧ r.capture.heap.objs buf.pool = some (.pool p) ∧
    AskedShm trace offset b.width b.height buf.stride
  created : ∃ id, Asked trace (.createPool id p.size)
  data : f.shmData = some (p.p + offset)

variable {trace : List ShmOp} {r r' : ShmRun} {op : ShmOp} {f : Frame} {width height : Nat}

/-- What is true of each buffer that has been asked for. -/
def Positive (trace : List Op) : Prop :=
  ∀ offset width height stride, AskedShm trace offset width height stride → 0 ≤ offset ∧ 0 < width

theorem next_perform (h : r.next op = .ok r') : r.capture.perform op.toOp = .ok r'.capture := by
  unfold next at h
  obtain ⟨c, hc, h⟩ := bind_ok h
  rw [hc]
  split at h <;> (obtain rfl := Except.ok.inj h; rfl)

theorem Positive.snoc {ops : List Op} (h : Positive ops) (hop : r.Conforms op) :
    Positive (ops ++ [op.toOp]) := by
  rintro offset width height stride ⟨sender, id, format, k, env, hmem⟩
  obtain hmem | hmem := List.mem_append.mp hmem
  · exact h offset width height stride ⟨sender, id, format, k, env, hmem⟩
  · have heq := List.mem_singleton.mp hmem
    cases op with
    | plain op =>
        change _ = op at heq
        obtain rfl := heq
        exact ⟨hop.1.1, hop.1.2.1⟩
    | resize k' env' sender' size => cases heq

theorem run_pictured (h : (system width height).Run trace r) :
    r.capture.Ready ∧ Pictured (trace.map ShmOp.toOp) r.capture ∧ Positive (trace.map ShmOp.toOp) := by
  refine h.invariant (fun trace r => r.capture.Ready ∧ Pictured (trace.map ShmOp.toOp) r.capture ∧
    Positive (trace.map ShmOp.toOp)) ?_ ?_
  · rintro _ rfl
    refine ⟨CaptureSession.start_ready _ _, CaptureSession.start_pictured _ _, ?_⟩
    rintro offset width height stride ⟨sender, id, format, k, env, hmem⟩
    cases hmem
  · rintro trace r op r' ⟨hready, hpictured, hpositive⟩ ⟨⟨hallowed, hconforms⟩, hok⟩
    have hperform := next_perform hok
    rw [List.map_append, List.map_singleton]
    exact ⟨hready.perform hallowed hperform, hpictured.perform hready hallowed hperform,
      hpositive.snoc hconforms⟩

theorem cInt_four {width : Int} (hwidth : 0 < width) :
    cInt (width * 4) = width * 4 ↔ 4 * width < 2 ^ 31 := by
  constructor
  · intro h
    have hlt : cInt (width * 4) < 2 ^ 31 := by
      unfold cInt
      exact Int.bmod_lt (by decide)
    omega
  · intro h
    exact cInt_eq (by omega) (by omega)

theorem inBounds_iff {b : Buffer} {p : Pool} {offset : Int}
    (hdata : f.shmData = some (p.p + offset)) (hstride : f.stride = cInt (b.width * 4))
    (hoffset : 0 ≤ offset) (hwidth : 0 < b.width) :
    r.InBounds f b p ↔ r.Fits offset b.width p.size := by
  unfold InBounds Fits
  rw [← cInt_four hwidth, ← hstride]
  refine and_congr_right fun hexact => ?_
  have hreads : encodeVideoFrame r.capture.width r.capture.height f.shmData f.stride 0 =
      some { base := p.p + offset, stride := f.stride, width := r.capture.width,
             height := r.capture.height } := by
    rw [hdata]
    rfl
  have hstride' : 0 ≤ f.stride := by omega
  rw [hreads]
  simp only [Option.mem_def, Option.some.injEq, forall_eq']
  rw [Raster.within_iff (Int.le_add_of_nonneg_right hoffset) hstride', hexact, Int.mul_comm b.width]
  dsimp only
  refine or_congr_right (or_congr_right ?_)
  constructor <;> intro h <;> linarith

/-- In every run the pool of a queued shm frame is mapped, and the frame is read within its pages if
and only if the picture fits those that the pool was created with. -/
theorem frames_in_bounds (width height : Nat) (trace : List ShmOp) (r : ShmRun)
    (hr : (system width height).Run trace r) (f : Frame) (hf : f ∈ r.capture.queue)
    (hshm : f.shmData.isSome) :
    ∃ b p offset, r.OfPool (trace.map ShmOp.toOp) f b p offset ∧
      (r.InBounds f b p ↔ r.Fits offset b.width p.size) := by
  obtain ⟨hready, hpictured, hpositive⟩ := run_pictured hr
  obtain ⟨b, hbacked⟩ := hpictured.backed hready hf
  have hdata : f.shmData = b.shmBuf.map ShmBuffer.p := congrArg Frame.shmData hbacked.frame
  have hstride : f.stride = cInt (b.width * 4) := congrArg Frame.stride hbacked.frame
  cases hbuf : b.shmBuf with
  | none =>
      rw [hdata, hbuf] at hshm
      cases hshm
  | some buf =>
      obtain ⟨p, offset, id, hpool, hcreated, hp, hasked⟩ := hbacked.shm buf hbuf
      rw [hbuf, Option.map_some, hp] at hdata
      obtain ⟨hoffset, hwidth⟩ := hpositive _ _ _ _ hasked
      refine ⟨b, p, offset, ?_, inBounds_iff hdata hstride hoffset hwidth⟩
      exact ⟨hbacked.buffer, ⟨buf, hbuf, hpool, hasked⟩, ⟨id, hcreated⟩, hdata⟩

/-- A buffer at the beginning of its pool is committed, after the pool has been destroyed. -/
def onePool : List ShmOp :=
  [.plain (.connect 0), .plain (.message 0 quiet (.createPool 2 256)),
    .plain (.message 0 quiet (.createBuffer 2 3 0 8 8 32 0)),
    .plain (.message 0 quiet (.poolDestroy 2)), .plain (.message 0 quiet (.createSurface 4)),
    .plain (.message 0 quiet (.surfaceAttach 4 3 0 0)), .plain (.message 0 quiet (.surfaceCommit 4))]

theorem frames_in_bounds_onePool : ∃ r f b p offset, (system 8 8).Run onePool r ∧
    r.capture.queue = [f] ∧ r.OfPool (onePool.map ShmOp.toOp) f b p offset ∧ p.size = 256 ∧
    (r.InBounds f b p ↔ r.Fits offset b.width p.size) := by
  have h₀ : (system 8 8).Run [] (start 8 8) := .start rfl
  have h₁ : (system 8 8).Run (onePool.take 1) _ := h₀.next ⟨⟨rfl, trivial⟩, rfl⟩
  have h₂ : (system 8 8).Run (onePool.take 2) _ :=
    h₁.next ⟨⟨⟨rfl, by decide, by decide, rfl⟩, Int.natCast_pos.mpr (by decide)⟩, rfl⟩
  have h₃ : (system 8 8).Run (onePool.take 3) _ :=
    h₂.next ⟨⟨⟨rfl, ⟨rfl, rfl⟩, by decide, by decide, rfl⟩, by decide, by rintro _ ⟨⟩; decide⟩, rfl⟩
  have h₄ : (system 8 8).Run (onePool.take 4) _ := h₃.next ⟨⟨⟨rfl, rfl, rfl⟩, trivial⟩, rfl⟩
  have h₅ : (system 8 8).Run (onePool.take 5) _ :=
    h₄.next ⟨⟨⟨rfl, by decide, by decide, rfl⟩, trivial⟩, rfl⟩
  have h₆ : (system 8 8).Run (onePool.take 6) _ :=
    h₅.next ⟨⟨⟨rfl, ⟨rfl, rfl⟩, .inr rfl⟩, trivial⟩, rfl⟩
  have h₇ : (system 8 8).Run onePool _ := h₆.next ⟨⟨⟨rfl, rfl, rfl⟩, trivial⟩, rfl⟩
  obtain ⟨b, p, offset, hpool, hiff⟩ :=
    frames_in_bounds _ _ _ _ h₇ _ (List.mem_singleton_self _) rfl
  have hsize : p.size = 256 := by
    obtain ⟨buf, hbuf, hp, -⟩ := hpool.pool
    obtain rfl := Obj.buffer.inj (Option.some.inj hpool.buffer)
    obtain rfl := Option.some.inj hbuf
    obtain rfl := Obj.pool.inj (Option.some.inj hp)
    rfl
  exact ⟨_, _, b, p, offset, h₇, rfl, hpool, hsize, hiff⟩

/-- The pool is made a page larger, and the buffer lies in the new page. -/
def resized : List ShmOp :=
  [.plain (.connect 0), .plain (.message 0 quiet (.createPool 2 4096)), .resize 0 quiet 2 8192,
    .plain (.message 0 quiet (.createBuffer 2 3 4096 8 8 32 0)),
    .plain (.message 0 quiet (.createSurface 4)), .plain (.message 0 quiet (.surfaceAttach 4 3 0 0)),
    .plain (.message 0 quiet (.surfaceCommit 4))]

theorem frame_out_of_bounds : ∃ r f b p, (system 8 8).Run resized r ∧ r.capture.queue = [f] ∧
    r.OfPool (resized.map ShmOp.toOp) f b p 4096 ∧ ¬ r.InBounds f b p := by
  have h₀ : (system 8 8).Run [] (start 8 8) := .start rfl
  have h₁ : (system 8 8).Run (resized.take 1) _ := h₀.next ⟨⟨rfl, trivial⟩, rfl⟩
  have h₂ : (system 8 8).Run (resized.take 2) _ :=
    h₁.next ⟨⟨⟨rfl, by decide, by decide, rfl⟩, Int.natCast_pos.mpr (by decide)⟩, rfl⟩
  have h₃ : (system 8 8).Run (resized.take 3) _ :=
    h₂.next ⟨⟨⟨rfl, nofun⟩, ⟨rfl, rfl⟩, by rintro _ ⟨⟩; decide⟩, rfl⟩
  have h₄ : (system 8 8).Run (resized.take 4) _ :=
    h₃.next ⟨⟨⟨rfl, ⟨rfl, rfl⟩, by decide, by decide, rfl⟩, by decide, by rintro _ ⟨⟩; decide⟩, rfl⟩
  have h₅ : (system 8 8).Run (resized.take 5) _ :=
    h₄.next ⟨⟨⟨rfl, by decide, by decide, rfl⟩, trivial⟩, rfl⟩
  have h₆ : (system 8 8).Run (resized.take 6) _ :=
    h₅.next ⟨⟨⟨rfl, ⟨rfl, rfl⟩, .inr rfl⟩, trivial⟩, rfl⟩
  have h₇ : (system 8 8).Run resized _ := h₆.next ⟨⟨⟨rfl, rfl, rfl⟩, trivial⟩, rfl⟩
  refine ⟨_, _, _, _, h₇, rfl, ⟨rfl, ⟨_, rfl, rfl, ?_⟩, ⟨2, 0, quiet, ?_⟩, rfl⟩, ?_⟩
  · exact ⟨2, 3, 0, 0, quiet, List.mem_of_getElem? (i := 3) rfl⟩
  · exact List.mem_of_getElem? (i := 1) rfl
  · rintro ⟨-, hreads⟩
    -- the first byte lies behind the last one that is mapped
    exact absurd (hreads _ rfl 0 0 (by decide) (by decide)).2 (by decide)

end ShmRun

end Stratus.Encode
