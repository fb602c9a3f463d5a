import Mathlib.Algebra.GroupWithZero.Nat
import Mathlib.Data.List.TakeDrop
import Stratus.Lib.Word

/-! Memory that is written as bytes and read as 32-bit words, or the other way round, on a machine
that puts the least significant byte first. -/
namespace Stratus.Lib

/-- The first `n` bytes of a number. -/
def toLittle : Nat → Nat → List UInt8
  | 0, _ => []
  | n + 1, value => UInt8.ofNat value :: toLittle n (value / 256)

@[simp] theorem length_toLittle (n value : Nat) : (toLittle n value).length = n := by
  induction n generalizing value with
  | zero => rfl
  | succ n ih => rw [toLittle, List.length_cons, ih]

theorem ofLittle_toLittle (n value : Nat) : ofLittle (toLittle n value) = value % 256 ^ n := by
  induction n generalizing value with
  | zero => rw [Nat.pow_zero, Nat.mod_one]; rfl
  | succ n ih =>
      have hbyte : (UInt8.ofNat value).toNat = value % 256 := UInt8.toNat_ofNat'
      rw [toLittle, ofLittle, ih, hbyte, Nat.pow_succ, Nat.mul_comm (256 ^ n) 256, Nat.mod_mul]

theorem toLittle_ofLittle (bytes : List UInt8) : toLittle bytes.length (ofLittle bytes) = bytes := by
  induction bytes with
  | nil => rfl
  | cons byte rest ih =>
      have hlt := byte.toNat_lt
      have hdiv : (byte.toNat + 256 * ofLittle rest) / 256 = ofLittle rest := by omega
      have hmod : UInt8.ofNat (byte.toNat + 256 * ofLittle rest) = byte := by
        apply UInt8.toNat_inj.mp
        rw [UInt8.toNat_ofNat']
        omega
      rw [List.length_cons, ofLittle, toLittle, hdiv, hmod, ih]

/-- The bytes of an array of words. -/
def wordBytes (words : List UInt32) : List UInt8 := words.flatMap fun word => toLittle 4 word.toNat

/-- Bytes as an array of words.  What does not fill a word is left out. -/
def bytesWords : List UInt8 → List UInt32
  | b₀ :: b₁ :: b₂ :: b₃ :: rest => UInt32.ofNat (ofLittle [b₀, b₁, b₂, b₃]) :: bytesWords rest
  | _ => []

theorem wordBytes_cons (word : UInt32) (words : List UInt32) :
    wordBytes (word :: words) = toLittle 4 word.toNat ++ wordBytes words := rfl

theorem wordBytes_append (words words' : List UInt32) :
    wordBytes (words ++ words') = wordBytes words ++ wordBytes words' :=
  List.flatMap_append

@[simp] theorem length_wordBytes (words : List UInt32) :
    (wordBytes words).length = 4 * words.length := by
  induction words with
  | nil => rfl
  | cons word words ih =>
      rw [wordBytes_cons, List.length_append, ih, length_toLittle, List.length_cons]
      omega

/-- Four bytes are one word. -/
theorem bytesWords_append {bytes : List UInt8} (h : bytes.length = 4) (rest : List UInt8) :
    bytesWords (bytes ++ rest) = UInt32.ofNat (ofLittle bytes) :: bytesWords rest := by
  obtain ⟨b₀, bytes, rfl⟩ := List.exists_cons_of_length_eq_add_one h
  obtain ⟨b₁, bytes, rfl⟩ := List.exists_cons_of_length_eq_add_one (Nat.succ.inj h)
  obtain ⟨b₂, bytes, rfl⟩ :=
    List.exists_cons_of_length_eq_add_one (Nat.succ.inj (Nat.succ.inj h))
  obtain ⟨b₃, rfl⟩ := List.length_eq_one_iff.mp (Nat.succ.inj (Nat.succ.inj (Nat.succ.inj h)))
  rfl

theorem bytesWords_of_lt {bytes : List UInt8} (h : bytes.length < 4) : bytesWords bytes = [] := by
  unfold bytesWords
  split
  · simp only [List.length_cons] at h
    omega
  · rfl

theorem bytesWords_wordBytes_append (words : List UInt32) (bytes : List UInt8) :
    bytesWords (wordBytes words ++ bytes) = words ++ bytesWords bytes := by
  induction words with
  | nil => rfl
  | cons word words ih =>
      rw [wordBytes_cons, List.append_assoc, bytesWords_append (length_toLittle 4 _), ih,
        ofLittle_toLittle, show 256 ^ 4 = 2 ^ 32 by rfl, Nat.mod_eq_of_lt word.toNat_lt,
        UInt32.ofNat_toNat, List.cons_append]

theorem bytesWords_wordBytes (words : List UInt32) : bytesWords (wordBytes words) = words := by
  have h := bytesWords_wordBytes_append words []
  rwa [List.append_nil, show bytesWords [] = [] from rfl, List.append_nil] at h

/-- What the words of some bytes keep of them. -/
theorem wordBytes_bytesWords (bytes : List UInt8) :
    wordBytes (bytesWords bytes) = bytes.take (4 * (bytes.length / 4)) := by
  induction bytes using bytesWords.induct with
  | case1 b₀ b₁ b₂ b₃ rest ih =>
      have hword : toLittle 4 (UInt32.ofNat (ofLittle [b₀, b₁, b₂, b₃])).toNat = [b₀, b₁, b₂, b₃] := by
        have hlt := ofLittle_lt [b₀, b₁, b₂, b₃]
        simp only [List.length_cons, List.length_nil] at hlt
        rw [UInt32.toNat_ofNat', Nat.mod_eq_of_lt (by omega)]
        exact toLittle_ofLittle [b₀, b₁, b₂, b₃]
      have hlength : 4 * ((b₀ :: b₁ :: b₂ :: b₃ :: rest).length / 4) = 4 * (rest.length / 4) + 4 := by
        simp only [List.length_cons]
        omega
      rw [bytesWords, wordBytes_cons, hword, ih, hlength]
      rfl
  | case2 bytes h =>
      have hlt : bytes.length < 4 := by
        rcases bytes with _ | ⟨b₀, _ | ⟨b₁, _ | ⟨b₂, _ | ⟨b₃, rest⟩⟩⟩⟩
        · simp
        · simp
        · simp
        · simp
        · exact absurd rfl (h b₀ b₁ b₂ b₃ rest)
      rw [bytesWords_of_lt hlt, Nat.div_eq_of_lt hlt]
      rfl

@[simp] theorem length_bytesWords (bytes : List UInt8) :
    (bytesWords bytes).length = bytes.length / 4 := by
  have h := congrArg List.length (wordBytes_bytesWords bytes)
  rw [length_wordBytes, List.length_take] at h
  omega

/-- The words of a zeroed buffer that bytes have been copied to. -/
def packed (bytes : List UInt8) : List UInt32 := bytesWords (bytes ++ [0, 0, 0])

@[simp] theorem length_packed (bytes : List UInt8) : (packed bytes).length = (bytes.length + 3) / 4 := by
  rw [packed, length_bytesWords, List.length_append]
  rfl

theorem take_wordBytes_packed (bytes : List UInt8) (rest : List UInt32) :
    (wordBytes (packed bytes ++ rest)).take bytes.length = bytes := by
  have hle : bytes.length ≤ 4 * ((bytes ++ [0, 0, 0]).length / 4) := by
    rw [List.length_append]
    simp only [List.length_cons, List.length_nil]
    omega
  rw [wordBytes_append, packed, wordBytes_bytesWords, List.take_append_of_le_length (by simp; omega),
    List.take_take, Nat.min_eq_left hle, List.take_left]

end Stratus.Lib
