import Mathlib.Data.Int.Log
import Mathlib.Data.Rat.Floor
import Mathlib.Tactic.Linarith

/-! The arithmetic of numbers with 53 significant bits, away from the smallest and the largest of them.
Rounding keeps the order, which is all that most programs need of it. -/
namespace Stratus.Lib.Double

/-- The nearest integer, the even one of two. -/
def nearestEven (x : Rat) : Int :=
  if 1 / 2 < x - ⌊x⌋ ∨ (x - ⌊x⌋ = 1 / 2 ∧ ⌊x⌋ % 2 = 1) then ⌊x⌋ + 1 else ⌊x⌋

/-- The last place of a number. -/
def unit (x : Rat) : Rat := 2 ^ (Int.log 2 x - 52)

/-- What an operation gives whose exact result is this, not below 0. -/
def rounded (x : Rat) : Rat := if x = 0 then 0 else nearestEven (x / unit x) * unit x

/-- `Math.round`. -/
def mathRound (x : Rat) : Int := ⌊x + 1 / 2⌋

theorem nearestEven_mono {x y : Rat} (h : x ≤ y) : nearestEven x ≤ nearestEven y := by
  have hfloor : ⌊x⌋ ≤ ⌊y⌋ := Int.floor_le_floor h
  unfold nearestEven
  obtain hlt | heq := lt_or_eq_of_le hfloor
  · split <;> split <;> omega
  · rw [heq]
    have hrest : x - ⌊y⌋ ≤ y - ⌊y⌋ := sub_le_sub_right h _
    split
    · next hup =>
      refine le_of_eq (if_pos ?_).symm
      obtain hx | ⟨hx, hodd⟩ := hup
      · exact .inl (hx.trans_le hrest)
      · obtain hy | hy := lt_or_eq_of_le (hx ▸ hrest)
        · exact .inl hy
        · exact .inr ⟨hy.symm, hodd⟩
    · split <;> omega

theorem nearestEven_intCast (n : Int) : nearestEven n = n := by
  unfold nearestEven
  rw [Int.floor_intCast, sub_self]
  refine if_neg ?_
  rintro (h | ⟨h, -⟩) <;> norm_num at h

theorem unit_pos (x : Rat) : 0 < unit x := by
  exact zpow_pos (by norm_num) _

theorem rounded_zero : rounded 0 = 0 := if_pos rfl

theorem rounded_pos {x : Rat} (h : 0 < x) : rounded x = nearestEven (x / unit x) * unit x := if_neg h.ne'

theorem rounded_nonneg {x : Rat} (h : 0 ≤ x) : 0 ≤ rounded x := by
  obtain rfl | hpos := h.eq_or_lt
  · exact le_of_eq rounded_zero.symm
  · rw [rounded_pos hpos]
    refine mul_nonneg ?_ (unit_pos x).le
    have hzero := nearestEven_mono (div_nonneg h (unit_pos x).le)
    rw [show (0 : Rat) = (0 : Int) from rfl, nearestEven_intCast] at hzero
    exact_mod_cast hzero

theorem zpow_unit (x : Rat) (n : Int) : (2 : Rat) ^ (52 + n) * unit x = 2 ^ (Int.log 2 x + n) := by
  unfold unit
  rw [← zpow_add₀ (by norm_num)]
  congr 1
  omega

/-- An integer with 53 bits is kept. -/
theorem rounded_natCast {n : Nat} (h : n < 2 ^ 53) : rounded n = n := by
  obtain rfl | hpos := Nat.eq_zero_or_pos n
  · rw [Nat.cast_zero, rounded_zero]
  · have hlog : Nat.log 2 n < 53 := Nat.log_lt_of_lt_pow hpos.ne' h
    have hunit : unit n = ((2 : Rat) ^ (52 - Nat.log 2 n))⁻¹ := by
      unfold unit
      rw [Int.log_natCast, ← zpow_natCast, ← zpow_neg]
      congr 1
      omega
    have hplaces : (n : Rat) / unit n = ((n * 2 ^ (52 - Nat.log 2 n) : Int) : Rat) := by
      rw [hunit, div_inv_eq_mul]
      push_cast
      rfl
    rw [rounded_pos (Nat.cast_pos.mpr hpos), hplaces, nearestEven_intCast, ← hplaces,
      div_mul_cancel₀ _ (unit_pos _).ne']

/-- A number lies between two powers of two, and so does what it is rounded to. -/
theorem rounded_between {x : Rat} (h : 0 < x) :
    (2 : Rat) ^ Int.log 2 x ≤ rounded x ∧ rounded x ≤ 2 ^ (Int.log 2 x + 1) := by
  have hlow : (2 : Rat) ^ Int.log 2 x ≤ x := Int.zpow_log_le_self (by decide) h
  have hhigh : x < (2 : Rat) ^ (Int.log 2 x + 1) := Int.lt_zpow_succ_log_self (by decide) x
  have hlow' : ((2 ^ 52 : Int) : Rat) ≤ x / unit x := by
    rw [le_div_iff₀ (unit_pos x)]
    refine le_trans (le_of_eq ?_) hlow
    rw [← add_zero (Int.log 2 x), ← zpow_unit]
    norm_num
  have hhigh' : x / unit x ≤ ((2 ^ 53 : Int) : Rat) := by
    rw [div_le_iff₀ (unit_pos x)]
    refine hhigh.le.trans (le_of_eq ?_)
    rw [← zpow_unit]
    norm_num
  have hround := rounded_pos h
  have hmono := nearestEven_mono hlow'
  have hmono' := nearestEven_mono hhigh'
  rw [nearestEven_intCast] at hmono hmono'
  rw [hround, ← zpow_unit, ← add_zero (Int.log 2 x), ← zpow_unit]
  constructor
  · refine mul_le_mul_of_nonneg_right ?_ (unit_pos x).le
    exact_mod_cast hmono
  · refine mul_le_mul_of_nonneg_right ?_ (unit_pos x).le
    exact_mod_cast hmono'

/-- Rounding keeps the order. -/
theorem rounded_mono {x y : Rat} (hx : 0 ≤ x) (h : x ≤ y) : rounded x ≤ rounded y := by
  obtain rfl | hpos := hx.eq_or_lt
  · rw [rounded_zero]
    exact rounded_nonneg h
  · have hy : 0 < y := hpos.trans_le h
    obtain hlog | hlog := (Int.log_mono_right hpos h : Int.log 2 x ≤ Int.log 2 y).eq_or_lt
    · -- in the same units
      have hunit : unit x = unit y := by rw [unit, unit, hlog]
      rw [rounded_pos hpos, rounded_pos hy, hunit]
      refine mul_le_mul_of_nonneg_right ?_ (unit_pos y).le
      exact_mod_cast nearestEven_mono (div_le_div_of_nonneg_right h (unit_pos y).le)
    · calc
        rounded x ≤ 2 ^ (Int.log 2 x + 1) := (rounded_between hpos).2
        _ ≤ 2 ^ Int.log 2 y := zpow_le_zpow_right₀ (by norm_num) hlog
        _ ≤ rounded y := (rounded_between hy).1

theorem mathRound_intCast (n : Int) : mathRound n = n := by
  unfold mathRound
  rw [Int.floor_intCast_add, Int.floor_eq_zero_iff.mpr ⟨by norm_num, by norm_num⟩, add_zero]

theorem mathRound_mono {x y : Rat} (h : x ≤ y) : mathRound x ≤ mathRound y :=
  Int.floor_le_floor (add_le_add_left h _)

end Stratus.Lib.Double
