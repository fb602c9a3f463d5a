import Mathlib.Tactic.NormNum
import Mathlib.Data.Int.Order.Basic

/-! Fixed-width integers as the C code computes with them, and the bytes they are
stored in. -/
namespace Stratus.Lib

/-- A result of C `int` arithmetic, reduced to 32 bits. -/
def cInt (x : Int) : Int := x.bmod (2 ^ 32)

theorem cInt_eq {x : Int} (hlow : -2 ^ 31 ≤ x) (hhigh : x < 2 ^ 31) : cInt x = x := by
  unfold cInt Int.bmod
  simp only [Nat.cast_ofNat, Nat.cast_pow] at *
  split <;> omega

/-- An `int` converted to `size_t`. -/
def sizeT (x : Int) : Nat := (x % 2 ^ 64).toNat

theorem sizeT_natCast {n : Nat} (h : n < 2 ^ 64) : sizeT n = n := by
  unfold sizeT
  omega

/-- The number that bytes stand for, least significant first. -/
def ofLittle : List UInt8 → Nat
  | [] => 0
  | b :: rest => b.toNat + 256 * ofLittle rest

theorem ofLittle_lt (bytes : List UInt8) : ofLittle bytes < 256 ^ bytes.length := by
  induction bytes with
  | nil => exact Nat.one_pos
  | cons b rest ih =>
      have hb := b.toNat_lt
      rw [ofLittle, List.length_cons, Nat.pow_succ]
      omega

/-- Four bytes put together by shifts, most significant first. -/
theorem u32_of_bytes (b₀ b₁ b₂ b₃ : UInt8) :
    ((b₀.toUInt32 <<< 24) ||| (b₁.toUInt32 <<< 16) ||| (b₂.toUInt32 <<< 8) ||| b₃.toUInt32).toNat =
      2 ^ 24 * b₀.toNat + 2 ^ 16 * b₁.toNat + 2 ^ 8 * b₂.toNat + b₃.toNat := by
  have h₀ := b₀.toNat_lt
  have h₁ := b₁.toNat_lt
  have h₂ := b₂.toNat_lt
  have h₃ := b₃.toNat_lt
  have hshift₀ : (b₀.toUInt32 <<< 24).toNat = 2 ^ 24 * b₀.toNat := by
    simp [UInt32.toNat_shiftLeft, Nat.shiftLeft_eq]
    omega
  have hshift₁ : (b₁.toUInt32 <<< 16).toNat = 2 ^ 16 * b₁.toNat := by
    simp [UInt32.toNat_shiftLeft, Nat.shiftLeft_eq]
    omega
  have hshift₂ : (b₂.toUInt32 <<< 8).toNat = 2 ^ 8 * b₂.toNat := by
    simp [UInt32.toNat_shiftLeft, Nat.shiftLeft_eq]
    omega
  rw [UInt32.toNat_or, UInt32.toNat_or, UInt32.toNat_or, hshift₀, hshift₁, hshift₂,
    UInt8.toNat_toUInt32, ← Nat.two_pow_add_eq_or_of_lt (by omega),
    show 2 ^ 24 * b₀.toNat + 2 ^ 16 * b₁.toNat = 2 ^ 16 * (2 ^ 8 * b₀.toNat + b₁.toNat) by omega,
    ← Nat.two_pow_add_eq_or_of_lt (by omega),
    show 2 ^ 16 * (2 ^ 8 * b₀.toNat + b₁.toNat) + 2 ^ 8 * b₂.toNat =
      2 ^ 8 * (2 ^ 16 * b₀.toNat + 2 ^ 8 * b₁.toNat + b₂.toNat) by omega,
    ← Nat.two_pow_add_eq_or_of_lt (by omega)]

end Stratus.Lib
