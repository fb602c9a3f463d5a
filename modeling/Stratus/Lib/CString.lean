import Mathlib.Algebra.GroupWithZero.Nat
import Mathlib.Data.List.TakeWhile
import Mathlib.Data.List.TakeDrop

/-! C strings, as bytes.  A text ends at the first zero, which an array may be too short to
hold. -/
namespace Stratus.Lib

/-- The text in an array, or in what a text was decoded to. -/
def cString (bytes : List UInt8) : List UInt8 := bytes.takeWhile fun byte => byte ≠ 0

theorem cString_eq_self_iff {bytes : List UInt8} : cString bytes = bytes ↔ 0 ∉ bytes := by
  rw [cString, List.takeWhile_eq_self_iff]
  constructor
  · intro h hzero
    simpa using h 0 hzero
  · intro h byte hmem
    simpa using fun heq : byte = 0 => h (heq ▸ hmem)

theorem zero_notMem_cString (bytes : List UInt8) : 0 ∉ cString bytes := by
  intro h
  simpa using List.mem_takeWhile_imp h

/-- An array of that size after `strncpy`, which fills it up with zeros. -/
def strncpy (size : Nat) (src : List UInt8) : List UInt8 :=
  (src ++ List.replicate size 0).take size

section Copy

variable {src : List UInt8} {size : Nat}

theorem strncpy_of_lt (h : src.length < size) :
    strncpy size src = src ++ List.replicate (size - src.length) 0 := by
  rw [strncpy, List.take_append, List.take_of_length_le (Nat.le_of_lt h), List.take_replicate]
  congr 2
  omega

theorem strncpy_of_le (h : size ≤ src.length) : strncpy size src = src.take size := by
  rw [strncpy, List.take_append_of_le_length h]

/-- The copy of a text ends in a zero if there is room for it. -/
theorem zero_mem_strncpy_iff (hsrc : 0 ∉ src) : 0 ∈ strncpy size src ↔ src.length < size := by
  constructor
  · intro h
    by_contra hle
    rw [strncpy_of_le (Nat.le_of_not_lt hle)] at h
    exact hsrc (List.mem_of_mem_take h)
  · intro h
    rw [strncpy_of_lt h]
    exact List.mem_append_right _ (List.mem_replicate.mpr ⟨by omega, rfl⟩)

theorem cString_strncpy (hsrc : 0 ∉ src) : cString (strncpy size src) = src.take size := by
  have hkeep : ∀ byte ∈ src, decide (byte ≠ 0) = true := fun byte hmem =>
    decide_eq_true fun heq => hsrc (heq ▸ hmem)
  by_cases h : src.length < size
  · rw [strncpy_of_lt h, cString, List.takeWhile_append_of_pos hkeep,
      List.take_of_length_le (Nat.le_of_lt h)]
    cases size - src.length with
    | zero => simp
    | succ n => simp [List.replicate_succ]
  · rw [strncpy_of_le (Nat.le_of_not_lt h)]
    exact cString_eq_self_iff.mpr fun hmem => hsrc (List.mem_of_mem_take hmem)

end Copy

theorem cString_concat_zero (bytes : List UInt8) : cString (bytes ++ [0]) = cString bytes := by
  rw [cString, cString, List.takeWhile_append]
  split
  · next hlength =>
    rw [(List.takeWhile_prefix _).eq_of_length hlength]
    simp
  · rfl

/-- A text given by a pointer: the bytes before its terminator. -/
@[ext] structure CText where
  bytes : List UInt8
  zero_notMem : 0 ∉ bytes
deriving DecidableEq

/-- The text at the front of these bytes. -/
def CText.ofBytes (bytes : List UInt8) : CText := ⟨cString bytes, zero_notMem_cString bytes⟩

def CText.empty : CText := ⟨[], List.not_mem_nil⟩

/-- An array after `strncpy` of all its bytes but the last, which is set to zero. -/
def copyText (size : Nat) (text : CText) : Vector UInt8 (size + 1) :=
  ⟨(strncpy size text.bytes ++ [0]).toArray, by simp [strncpy]⟩

theorem toList_copyText (size : Nat) (text : CText) :
    (copyText size text).toList = strncpy size text.bytes ++ [0] := rfl

/-- The copy always ends, and only a text that is too long is cut. -/
theorem zero_mem_copyText (size : Nat) (text : CText) : 0 ∈ (copyText size text).toList := by
  rw [toList_copyText]
  exact List.mem_append_right _ (List.mem_singleton.mpr rfl)

theorem cString_copyText (size : Nat) (text : CText) :
    cString (copyText size text).toList = text.bytes.take size := by
  rw [toList_copyText, cString_concat_zero, cString_strncpy text.zero_notMem]

/-- What `snprintf` leaves of a text in an array of that size. -/
def snprintf (size : Nat) (text : List UInt8) : List UInt8 := text.take (size - 1)

theorem snprintf_eq_self_iff {size : Nat} {text : List UInt8} :
    snprintf size text = text ↔ text.length ≤ size - 1 :=
  List.take_eq_self_iff text

def utf8 (text : String) : List UInt8 := text.toList.flatMap String.utf8EncodeChar

/-- The conversion `%d`. -/
def decimal : Int → List UInt8
  | .ofNat n => (Nat.toDigits 10 n).map Char.toUInt8
  | .negSucc n => 45 :: (Nat.toDigits 10 (n + 1)).map Char.toUInt8

/-- A number with few digits is small. -/
theorem natAbs_lt_of_decimal {n : Int} {k : Nat} (hk : 0 < k) (h : (decimal n).length ≤ k) :
    n.natAbs < 10 ^ k := by
  cases n with
  | ofNat n =>
      rw [decimal, List.length_map, Nat.length_toDigits_le_iff (by decide) hk] at h
      exact h
  | negSucc n =>
      rw [decimal, List.length_cons, List.length_map] at h
      exact (Nat.length_toDigits_le_iff (by decide) hk).mp (Nat.le_of_succ_le h)

end Stratus.Lib
