import Mathlib.Tactic.Linarith
import Mathlib.Tactic.Zify

/-! Pictures in memory: rows of pixels of four bytes, a stride apart. -/
namespace Stratus.Lib

structure Raster where
  base : Int
  stride : Int
  width : Nat
  height : Nat

namespace Raster

variable {r : Raster}

/-- Where the four bytes of a pixel start. -/
def addr (r : Raster) (x y : Nat) : Int := r.base + y * r.stride + 4 * x

/-- All pixels lie in a stretch of memory. -/
def Within (r : Raster) (start size : Int) : Prop :=
  ∀ x y, x < r.width → y < r.height → start ≤ r.addr x y ∧ r.addr x y + 4 ≤ start + size

/-- It is enough that the last pixel does not lie beyond the end. -/
theorem within_iff {start size : Int} (hbase : start ≤ r.base) (hstride : 0 ≤ r.stride) :
    r.Within start size ↔ r.width = 0 ∨ r.height = 0 ∨
      r.base + ((r.height : Int) - 1) * r.stride + 4 * r.width ≤ start + size := by
  constructor
  · intro h
    obtain hwidth | hwidth := Nat.eq_zero_or_pos r.width
    · exact .inl hwidth
    obtain hheight | hheight := Nat.eq_zero_or_pos r.height
    · exact .inr (.inl hheight)
    have hlast := (h (r.width - 1) (r.height - 1) (by omega) (by omega)).2
    rw [addr, Nat.cast_sub hheight, Nat.cast_sub hwidth, Nat.cast_one] at hlast
    exact .inr (.inr (by linarith))
  · rintro h x y hx hy
    have hend := (h.resolve_left (Nat.ne_zero_of_lt hx)).resolve_left (Nat.ne_zero_of_lt hy)
    have hfirst : 0 ≤ (y : Int) * r.stride := Int.mul_nonneg (Int.natCast_nonneg y) hstride
    have hrow : (y : Int) * r.stride ≤ ((r.height : Int) - 1) * r.stride :=
      Int.mul_le_mul_of_nonneg_right (by omega) hstride
    constructor <;> rw [addr] <;> omega

/-- Two pictures that start at the same place. -/
theorem agree_iff (r r' : Raster) (hbase : r.base = r'.base) (width height : Nat) :
    (∀ x y, x < width → y < height → r.addr x y = r'.addr x y) ↔
      width = 0 ∨ height ≤ 1 ∨ r.stride = r'.stride := by
  constructor
  · intro h
    obtain hwidth | hwidth := Nat.eq_zero_or_pos width
    · exact .inl hwidth
    obtain hheight | hheight := Nat.lt_or_ge 1 height
    · have hsecond := h 0 1 hwidth hheight
      rw [addr, addr, hbase] at hsecond
      exact .inr (.inr (by omega))
    · exact .inr (.inl hheight)
  · rintro (hwidth | hheight | hstride) x y hx hy
    · omega
    · obtain rfl : y = 0 := by omega
      rw [addr, addr, hbase, Int.natCast_zero, Int.zero_mul, Int.zero_mul]
    · rw [addr, addr, hbase, hstride]

end Raster

end Stratus.Lib
