import Mathlib.Algebra.GroupWithZero.Nat
import Mathlib.Data.List.Basic

/-! Base 64: bytes as digits of six bits, which are written as characters. -/
namespace Stratus.Lib.Base64

/-- Three bytes are four digits.  What is missing at the end counts as zero. -/
def digits : List UInt8 → List Nat
  | [] => []
  | [a] => [a.toNat / 4, a.toNat % 4 * 16]
  | [a, b] => [a.toNat / 4, a.toNat % 4 * 16 + b.toNat / 16, b.toNat % 16 * 4]
  | a :: b :: c :: rest =>
      a.toNat / 4 :: (a.toNat % 4 * 16 + b.toNat / 16) :: (b.toNat % 16 * 4 + c.toNat / 64) ::
        c.toNat % 64 :: digits rest

/-- The bytes that are complete. -/
def bytes : List Nat → List UInt8
  | p :: q :: r :: s :: rest =>
      UInt8.ofNat (p * 4 + q / 16) :: UInt8.ofNat (q % 16 * 16 + r / 4) :: UInt8.ofNat (r % 4 * 64 + s) ::
        bytes rest
  | [p, q, r] => [UInt8.ofNat (p * 4 + q / 16), UInt8.ofNat (q % 16 * 16 + r / 4)]
  | [p, q] => [UInt8.ofNat (p * 4 + q / 16)]
  | _ => []

theorem ofNat_eq {n : Nat} {a : UInt8} (h : n = a.toNat) : UInt8.ofNat n = a := by
  rw [h, UInt8.ofNat_toNat]

theorem bytes_digits (data : List UInt8) : bytes (digits data) = data := by
  induction data using digits.induct with
  | case1 => rfl
  | case2 a =>
      have ha := a.toNat_lt
      rw [digits, bytes, ofNat_eq (a := a) (by omega)]
  | case3 a b =>
      have ha := a.toNat_lt
      have hb := b.toNat_lt
      rw [digits, bytes, ofNat_eq (a := a) (by omega), ofNat_eq (a := b) (by omega)]
  | case4 a b c rest ih =>
      have ha := a.toNat_lt
      have hb := b.toNat_lt
      have hc := c.toNat_lt
      rw [digits, bytes, ih, ofNat_eq (a := a) (by omega), ofNat_eq (a := b) (by omega),
        ofNat_eq (a := c) (by omega)]

theorem digits_lt (data : List UInt8) : ∀ d ∈ digits data, d < 64 := by
  induction data using digits.induct with
  | case1 => exact fun d hd => absurd hd List.not_mem_nil
  | case2 a =>
      have ha := a.toNat_lt
      simp only [digits, List.forall_mem_cons]
      exact ⟨by omega, by omega, fun d hd => absurd hd List.not_mem_nil⟩
  | case3 a b =>
      have ha := a.toNat_lt
      have hb := b.toNat_lt
      simp only [digits, List.forall_mem_cons]
      exact ⟨by omega, by omega, by omega, fun d hd => absurd hd List.not_mem_nil⟩
  | case4 a b c rest ih =>
      have ha := a.toNat_lt
      have hb := b.toNat_lt
      have hc := c.toNat_lt
      simp only [digits, List.forall_mem_cons]
      exact ⟨by omega, by omega, by omega, by omega, ih⟩

/-- How many digits are missing to fours. -/
def missing (data : List UInt8) : Nat := (3 - data.length % 3) % 3

theorem length_digits (data : List UInt8) :
    (digits data).length + missing data = 4 * ((data.length + 2) / 3) := by
  unfold missing
  induction data using digits.induct with
  | case1 => rfl
  | case2 a => simp only [digits, List.length_cons, List.length_nil]
  | case3 a b => simp only [digits, List.length_cons, List.length_nil]
  | case4 a b c rest ih =>
      simp only [digits, List.length_cons]
      omega

/-- The characters for the digits, and the one that pads the text. -/
structure Alphabet where
  char : Nat → Char
  digit : Char → Option Nat
  pad : Char
  digit_char : ∀ d, d < 64 → digit (char d) = some d
  digit_pad : digit pad = none

namespace Alphabet

variable (A : Alphabet)

def encode (data : List UInt8) : List Char :=
  (digits data).map A.char ++ List.replicate (missing data) A.pad

/-- One or two pads are taken from a text of whole fours. -/
def unpad (text : List Char) : List Char :=
  if text.length % 4 = 0 then
    if text.getLast? = some A.pad then
      if text.dropLast.getLast? = some A.pad then text.dropLast.dropLast else text.dropLast
    else text
  else text

/-- A text with spaces in it may be decoded, and one that is not padded. -/
def decode (space : Char → Bool) (text : List Char) : Option (List UInt8) :=
  let text := A.unpad (text.filter fun c => !space c)
  if text.length % 4 = 1 then none else (text.mapM A.digit).map bytes

theorem mapM_digit {ds : List Nat} (h : ∀ d ∈ ds, d < 64) : (ds.map A.char).mapM A.digit = some ds := by
  induction ds with
  | nil => rfl
  | cons d ds ih =>
      rw [List.forall_mem_cons] at h
      rw [List.map_cons, List.mapM_cons, A.digit_char d h.1, ih h.2]
      rfl

theorem length_encode (data : List UInt8) : (A.encode data).length = 4 * ((data.length + 2) / 3) := by
  rw [encode, List.length_append, List.length_map, List.length_replicate, length_digits]

theorem ne_pad {d : Nat} (hd : d < 64) : A.char d ≠ A.pad := by
  intro heq
  have hdigit := A.digit_char d hd
  rw [heq, A.digit_pad] at hdigit
  cases hdigit

theorem getLast?_ne_pad {ds : List Nat} (h : ∀ d ∈ ds, d < 64) : (ds.map A.char).getLast? ≠ some A.pad := by
  intro hlast
  rw [List.getLast?_map] at hlast
  obtain ⟨d, hd, heq⟩ := Option.map_eq_some_iff.mp hlast
  exact A.ne_pad (h d (List.mem_of_getLast? hd)) heq

theorem unpad_encode (data : List UInt8) : A.unpad (A.encode data) = (digits data).map A.char := by
  have hlength := A.length_encode data
  have hnot := A.getLast?_ne_pad (digits_lt data)
  rw [unpad, if_pos (by omega), encode]
  have hmissing : missing data = 0 ∨ missing data = 1 ∨ missing data = 2 := by
    unfold missing
    omega
  rcases hmissing with hzero | hone | htwo
  · rw [hzero, List.replicate_zero, List.append_nil, if_neg hnot]
  · rw [hone, List.replicate_one, if_pos List.getLast?_concat, List.dropLast_concat, if_neg hnot]
  · have hsplit : (digits data).map A.char ++ List.replicate 2 A.pad =
        (digits data).map A.char ++ [A.pad] ++ [A.pad] := by
      rw [List.append_assoc]
      rfl
    rw [htwo, hsplit, if_pos List.getLast?_concat, List.dropLast_concat, if_pos List.getLast?_concat,
      List.dropLast_concat]

variable {space : Char → Bool}

theorem filter_encode (hchar : ∀ d, d < 64 → space (A.char d) = false) (hpad : space A.pad = false)
    (data : List UInt8) : (A.encode data).filter (fun c => !space c) = A.encode data := by
  refine List.filter_eq_self.mpr fun c hc => ?_
  rcases List.mem_append.mp hc with hdigit | hpads
  · obtain ⟨d, hd, rfl⟩ := List.mem_map.mp hdigit
    rw [hchar d (digits_lt data d hd)]
    rfl
  · rw [List.eq_of_mem_replicate hpads, hpad]
    rfl

/-- What has been encoded is decoded again, whatever the alphabet. -/
theorem decode_encode (hchar : ∀ d, d < 64 → space (A.char d) = false) (hpad : space A.pad = false)
    (data : List UInt8) : A.decode space (A.encode data) = some data := by
  have hlength := length_digits data
  have hcount : missing data ≠ 3 := by
    unfold missing
    omega
  have hmissing : missing data < 3 := by
    unfold missing
    omega
  rw [decode, A.filter_encode hchar hpad, unpad_encode, List.length_map, if_neg (by omega), A.mapM_digit (digits_lt data), Option.map_some, bytes_digits]

end Alphabet

end Stratus.Lib.Base64
