import Stratus.Capture.ProxyData
import Stratus.Capture.WireFormat

/-! What `serialize_closure` writes is what `wl_connection_demarshal` reads, and a message that has
been demarshalled can be sent on. -/
namespace Stratus.Capture.Wire

open Stratus.Lib

/-- The argument is one that its details allow. -/
inductive Argument.Valid : ArgumentDetails → Argument → Prop
  | int {nullable value} : Valid ⟨.int, nullable⟩ (.word value)
  | uint {nullable value} : Valid ⟨.uint, nullable⟩ (.word value)
  | fixed {nullable value} : Valid ⟨.fixed, nullable⟩ (.word value)
  | nullString : Valid ⟨.string, true⟩ (.string none)
  | string {nullable s} (hlength : s.bytes.length + 1 < 2 ^ 32) :
      Valid ⟨.string, nullable⟩ (.string (some s))
  | object {nullable n} (hnull : n = 0 → nullable = true) : Valid ⟨.object, nullable⟩ (.id n)
  | newId {nullable n} (hnull : n ≠ 0) : Valid ⟨.newId, nullable⟩ (.id n)
  | array {nullable a} (hlength : a.length < 2 ^ 32) : Valid ⟨.array, nullable⟩ (.array (some a))
  | fd {nullable h} : Valid ⟨.fd, nullable⟩ (.fd h)

def blockWords (data : List UInt8) : List UInt32 := UInt32.ofNat data.length :: packed data

/-- The words that an argument is written as. -/
def argumentWords (arg : ArgumentDetails) (value : Argument) : List UInt32 :=
  match arg.type with
  | .int | .uint | .fixed => [value.u]
  | .object | .newId => [value.n]
  | .string => value.s.elim [0] fun s => blockWords (s.bytes ++ [0])
  | .array => value.a.elim [0] blockWords
  | .fd => []

def argumentFds (arg : ArgumentDetails) (value : Argument) : List Int :=
  if arg.type = .fd then [value.h] else []

theorem divRoundup_of_lt {n : Nat} (h : n < 2 ^ 32) : divRoundup n 4 = (n + 3) / 4 := by
  rw [divRoundup]
  exact Nat.mod_eq_of_lt (by omega)

theorem toNat_ofNat {n : Nat} (h : n < 2 ^ 32) : (UInt32.ofNat n).toNat = n := by
  rw [UInt32.toNat_ofNat', Nat.mod_eq_of_lt h]

theorem length_blockWords (data : List UInt8) (h : data.length < 2 ^ 32) :
    (blockWords data).length = 1 + divRoundup data.length 4 := by
  rw [blockWords, List.length_cons, length_packed, divRoundup_of_lt h, Nat.add_comm]

theorem cString_append_zero {s : List UInt8} (h : 0 ∉ s) (rest : List UInt8) :
    cString (s ++ 0 :: rest) = s := by
  have hkeep : ∀ byte ∈ s, decide (byte ≠ 0) = true := fun byte hmem =>
    decide_eq_true fun heq => h (heq ▸ hmem)
  rw [cString, List.takeWhile_append_of_pos hkeep, List.takeWhile_cons_of_neg (by simp),
    List.append_nil]

/-! ## Blocks of bytes -/

section Blocks

variable {words : List UInt32} {fds : List Int}

theorem drop_packed {data : List UInt8} (h : data.length < 2 ^ 32) :
    (packed data ++ words).drop (divRoundup data.length 4) = words := by
  rw [divRoundup_of_lt h]
  exact List.drop_left' (length_packed data)

theorem not_short {data : List UInt8} (h : data.length < 2 ^ 32) :
    ¬ (packed data ++ words).length < divRoundup data.length 4 := by
  rw [divRoundup_of_lt h, List.length_append, length_packed]
  omega

theorem readArray_packed {a : List UInt8} (h : a.length < 2 ^ 32) :
    readArray (UInt32.ofNat a.length) ⟨packed a ++ words, fds⟩ = .ok (.array (some a), ⟨words, fds⟩) := by
  simp only [readArray, toNat_ofNat h, if_neg (not_short h), drop_packed h, take_wordBytes_packed]

theorem readString_packed {s : CText} (h : s.bytes.length + 1 < 2 ^ 32) :
    readString (UInt32.ofNat (s.bytes.length + 1)) ⟨packed (s.bytes ++ [0]) ++ words, fds⟩ =
      .ok (.string (some s), ⟨words, fds⟩) := by
  have hlength : (s.bytes ++ [0]).length = s.bytes.length + 1 := by simp
  rw [← hlength] at h ⊢
  -- the text and its terminator come first in what is read
  obtain ⟨rest, hrest⟩ : ∃ rest, wordBytes (packed (s.bytes ++ [0]) ++ words) = s.bytes ++ 0 :: rest := by
    refine ⟨(wordBytes (packed (s.bytes ++ [0]) ++ words)).drop (s.bytes ++ [0]).length, ?_⟩
    conv_lhs => rw [← List.take_append_drop (s.bytes ++ [0]).length
      (wordBytes (packed (s.bytes ++ [0]) ++ words)), take_wordBytes_packed]
    rw [List.append_assoc, List.singleton_append]
  have hcString : cString (s.bytes ++ 0 :: rest) = s.bytes := cString_append_zero s.zero_notMem rest
  have hlast : (s.bytes ++ 0 :: rest).getD ((s.bytes ++ [0]).length - 1) 0 = 0 := by
    simp
  have htext : CText.ofBytes (s.bytes ++ 0 :: rest) = s := CText.ext hcString
  simp only [readString, toNat_ofNat h, if_neg (not_short h), drop_packed h, hrest, hlast, hcString,
    htext]
  rw [if_neg (by simp), if_neg (by simp)]

/-- What has been read as an array can be written again in as many words. -/
theorem readArray_sound {length : UInt32} {value : Argument} {rest : Input}
    (h : readArray length ⟨words, fds⟩ = .ok (value, rest)) :
    ∃ a, value = .array (some a) ∧ a.length < 2 ^ 32 ∧ rest.fds = fds ∧
      (blockWords a ++ rest.words).length = words.length + 1 := by
  simp only [readArray] at h
  have hlt : length.toNat < 2 ^ 32 := length.toNat_lt
  split at h
  · cases h
  · next hshort =>
    cases h
    rw [divRoundup_of_lt hlt] at hshort
    have htake : ((wordBytes words).take length.toNat).length = length.toNat := by
      rw [List.length_take, length_wordBytes]
      omega
    refine ⟨_, rfl, by omega, rfl, ?_⟩
    rw [List.length_append, length_blockWords _ (by omega), htake, List.length_drop,
      divRoundup_of_lt hlt]
    omega

theorem readString_sound {length : UInt32} {value : Argument} {rest : Input} (hlength : length ≠ 0)
    (h : readString length ⟨words, fds⟩ = .ok (value, rest)) :
    ∃ s, value = .string (some s) ∧ s.bytes.length + 1 < 2 ^ 32 ∧ rest.fds = fds ∧
      (blockWords (s.bytes ++ [0]) ++ rest.words).length = words.length + 1 := by
  simp only [readString] at h
  have hlt : length.toNat < 2 ^ 32 := length.toNat_lt
  have hpos : length.toNat ≠ 0 := fun hzero => hlength (UInt32.toNat_inj.mp hzero)
  split at h
  · cases h
  · next hshort =>
    split at h
    · cases h
    · split at h
      · cases h
      · next htext =>
        cases h
        rw [divRoundup_of_lt hlt] at hshort
        have hbytes : (CText.ofBytes (wordBytes words)).bytes.length = length.toNat - 1 :=
          not_not.mp htext
        refine ⟨_, rfl, by omega, rfl, ?_⟩
        rw [List.length_append, length_blockWords _ (by simp; omega), List.length_append, hbytes,
          List.length_singleton, List.length_drop, Nat.sub_add_cancel (by omega),
          divRoundup_of_lt hlt]
        omega

end Blocks

/-! ## Arguments -/

theorem readArgument_argumentWords {arg : ArgumentDetails} {value : Argument}
    (h : Argument.Valid arg value) (input : Input) :
    readArgument arg ⟨argumentWords arg value ++ input.words, argumentFds arg value ++ input.fds⟩ =
      .ok (value, input) := by
  cases h with
  | int => rfl
  | uint => rfl
  | fixed => rfl
  | nullString => rfl
  | string hlength =>
      next nullable s =>
      have hne : UInt32.ofNat (s.bytes ++ [0]).length ≠ 0 := by
        intro hzero
        have hnat := congrArg UInt32.toNat hzero
        rw [toNat_ofNat (by simpa using hlength), List.length_append] at hnat
        cases hnat
      show (if UInt32.ofNat (s.bytes ++ [0]).length = 0 then _ else _) = _
      rw [if_neg hne, List.length_append]
      exact readString_packed hlength
  | object hnull =>
      next nullable n =>
      show (if n = 0 ∧ ¬ nullable then _ else _) = _
      rw [if_neg fun hzero => hzero.2 (hnull hzero.1)]
      rfl
  | newId hnull => exact if_neg hnull
  | array hlength => exact readArray_packed hlength
  | fd => rfl

/-- A word is taken off the input, whatever is read next. -/
theorem nextWord_bind {β : Type} {input : Input} {next : UInt32 × Input → Except DemarshalError β}
    {b : β} (h : (nextWord input >>= next) = .ok b) :
    ∃ word words, input.words = word :: words ∧ next (word, ⟨words, input.fds⟩) = .ok b := by
  obtain ⟨words, fds⟩ := input
  cases words with
  | nil => cases h
  | cons word words => exact ⟨word, words, rfl, h⟩

theorem readArgument_sound {arg : ArgumentDetails} {value : Argument} {input rest : Input}
    (h : readArgument arg input = .ok (value, rest)) :
    Argument.Valid arg value ∧
      (argumentWords arg value ++ rest.words).length = input.words.length ∧
      argumentFds arg value ++ rest.fds = input.fds := by
  obtain ⟨type, nullable⟩ := arg
  cases type with
  | int =>
      obtain ⟨word, words, hwords, hnext⟩ := nextWord_bind h
      cases hnext
      exact ⟨.int, by rw [hwords]; rfl, rfl⟩
  | uint =>
      obtain ⟨word, words, hwords, hnext⟩ := nextWord_bind h
      cases hnext
      exact ⟨.uint, by rw [hwords]; rfl, rfl⟩
  | fixed =>
      obtain ⟨word, words, hwords, hnext⟩ := nextWord_bind h
      cases hnext
      exact ⟨.fixed, by rw [hwords]; rfl, rfl⟩
  | string =>
      obtain ⟨length, words, hwords, hnext⟩ := nextWord_bind h
      rw [hwords]
      dsimp only at hnext
      split at hnext
      · next hzero =>
        split at hnext
        · next hnullable =>
          cases hnext
          obtain rfl : nullable = true := hnullable
          exact ⟨.nullString, rfl, rfl⟩
        · cases hnext
      · next hlength =>
        obtain ⟨s, rfl, hlt, hfds, hsize⟩ := readString_sound hlength hnext
        exact ⟨.string hlt, hsize, hfds⟩
  | object =>
      obtain ⟨id, words, hwords, hnext⟩ := nextWord_bind h
      rw [hwords]
      dsimp only at hnext
      split at hnext
      · cases hnext
      · next hnull =>
        cases hnext
        refine ⟨.object fun hzero => ?_, rfl, rfl⟩
        exact not_not.mp fun hnullable => hnull ⟨hzero, hnullable⟩
  | newId =>
      obtain ⟨id, words, hwords, hnext⟩ := nextWord_bind h
      rw [hwords]
      dsimp only at hnext
      split at hnext
      · cases hnext
      · next hnull =>
        cases hnext
        exact ⟨.newId hnull, rfl, rfl⟩
  | array =>
      obtain ⟨length, words, hwords, hnext⟩ := nextWord_bind h
      rw [hwords]
      obtain ⟨a, rfl, hlt, hfds, hsize⟩ := readArray_sound hnext
      exact ⟨.array hlt, hsize, hfds⟩
  | fd =>
      obtain ⟨words, fds⟩ := input
      cases fds with
      | nil => cases h
      | cons fd fds =>
          cases h
          exact ⟨.fd, rfl, rfl⟩

/-- File descriptors that come later are left alone. -/
theorem readArgument_later {arg : ArgumentDetails} {value : Argument} {input rest : Input}
    (later : List Int) (h : readArgument arg input = .ok (value, rest)) :
    readArgument arg ⟨input.words, input.fds ++ later⟩ = .ok (value, ⟨rest.words, rest.fds ++ later⟩) := by
  obtain ⟨type, nullable⟩ := arg
  obtain ⟨words, fds⟩ := input
  cases type with
  | fd =>
      cases fds with
      | nil => cases h
      | cons fd fds =>
          cases h
          rfl
  | int | uint | fixed =>
      obtain ⟨word, words, rfl, hnext⟩ := nextWord_bind h
      cases hnext
      rfl
  | object | newId =>
      obtain ⟨id, words, rfl, hnext⟩ := nextWord_bind h
      dsimp only at hnext
      split at hnext
      · cases hnext
      · next hnull =>
        cases hnext
        exact if_neg hnull
  | array =>
      obtain ⟨length, words, rfl, hnext⟩ := nextWord_bind h
      show readArray length ⟨words, fds ++ later⟩ = _
      dsimp only [readArray] at hnext ⊢
      split at hnext
      · cases hnext
      · next hshort =>
        cases hnext
        exact if_neg hshort
  | string =>
      obtain ⟨length, words, rfl, hnext⟩ := nextWord_bind h
      dsimp only [readString] at hnext
      show (if length = 0 then _ else readString length ⟨words, fds ++ later⟩) = _
      dsimp only [readString]
      split at hnext
      · next hzero =>
        rw [if_pos hzero]
        split at hnext
        · next hnullable =>
          cases hnext
          exact if_pos hnullable
        · cases hnext
      · next hzero =>
        rw [if_neg hzero]
        split at hnext
        · cases hnext
        · next hshort =>
          rw [if_neg hshort]
          split at hnext
          · cases hnext
          · next hlast =>
            rw [if_neg hlast]
            split at hnext
            · cases hnext
            · next htext =>
              rw [if_neg htext]
              cases hnext
              rfl

/-- The arguments of a message, one after the other. -/
def codec : Codec ArgumentDetails Argument Input DemarshalError where
  valid := Argument.Valid
  write arg value input :=
    ⟨argumentWords arg value ++ input.words, argumentFds arg value ++ input.fds⟩
  read := readArgument
  read_write h input := readArgument_argumentWords h input

/-- How many words there are, and which file descriptors. -/
def measured : codec.Measured (Nat × List Int) where
  measure input := (input.words.length, input.fds)
  read_sound h := by
    obtain ⟨hvalid, hwords, hfds⟩ := readArgument_sound h
    exact ⟨hvalid, Prod.ext hwords hfds⟩
  measure_write arg value _ _ h := by
    obtain ⟨hwords, hfds⟩ := Prod.mk.inj h
    simp only [codec, List.length_append, hwords, hfds]

theorem writeFields_eq (details : List (ArgumentDetails × Argument)) (input : Input) :
    codec.writeFields details input =
      ⟨(details.flatMap fun pair => argumentWords pair.1 pair.2) ++ input.words,
        (details.flatMap fun pair => argumentFds pair.1 pair.2) ++ input.fds⟩ := by
  induction details with
  | nil => rfl
  | cons pair details ih =>
      show codec.write pair.1 pair.2 (codec.writeFields details input) = _
      rw [ih, List.flatMap_cons, List.flatMap_cons, List.append_assoc, List.append_assoc]
      rfl

/-! ## Serializing -/

section Serialize

variable {bufferCount : Nat} {buffer : List UInt32}

theorem writeBlock_of_le {data : List UInt8} (h : data.length < 2 ^ 32)
    (hroom : buffer.length + (blockWords data).length ≤ bufferCount) :
    writeBlock bufferCount data buffer = some (buffer ++ blockWords data) := by
  rw [length_blockWords _ h] at hroom
  have hshort : ¬ bufferCount - (buffer ++ [UInt32.ofNat data.length]).length <
      divRoundup data.length 4 := by
    rw [List.length_append, List.length_singleton]
    omega
  rw [writeBlock, if_neg hshort, blockWords, List.append_assoc, List.singleton_append]

theorem argumentSize_eq {arg : ArgumentDetails} {value : Argument} (h : Argument.Valid arg value) :
    argumentSize arg value = (argumentWords arg value).length := by
  cases h with
  | string hlength =>
      next s =>
      refine Eq.trans ?_ (length_blockWords (s.bytes ++ [0]) (by simpa using hlength)).symm
      rw [List.length_append]
      rfl
  | array hlength => exact (length_blockWords _ hlength).symm
  | _ => rfl

/-- There is always room for a word, unless the argument takes none. -/
theorem length_argumentWords_pos {arg : ArgumentDetails} (value : Argument) (h : arg.type ≠ .fd) :
    0 < (argumentWords arg value).length := by
  obtain ⟨type, nullable⟩ := arg
  cases type with
  | string =>
      show 0 < (value.s.elim [0] fun s => blockWords (s.bytes ++ [0])).length
      cases value.s with
      | none => exact Nat.one_pos
      | some s => exact Nat.succ_pos _
  | array =>
      show 0 < (value.a.elim [0] blockWords).length
      cases value.a with
      | none => exact Nat.one_pos
      | some a => exact Nat.succ_pos _
  | fd => exact absurd rfl h
  | _ => exact Nat.one_pos

theorem writeArgument_of_le {arg : ArgumentDetails} {value : Argument} (h : Argument.Valid arg value)
    (hroom : buffer.length + (argumentWords arg value).length ≤ bufferCount) :
    writeArgument bufferCount buffer (arg, value) = some (buffer ++ argumentWords arg value) := by
  by_cases hfd : arg.type = .fd
  · rw [writeArgument, if_pos hfd, argumentWords]
    split <;> simp_all
  · have hpos := length_argumentWords_pos value hfd
    rw [writeArgument, if_neg hfd, if_neg (by omega)]
    cases h with
    | string hlength => exact writeBlock_of_le (by simpa using hlength) hroom
    | array hlength => exact writeBlock_of_le hlength hroom
    | fd => exact absurd rfl hfd
    | _ => rfl

theorem writeArguments_of_le (buffer : List UInt32) {details : List (ArgumentDetails × Argument)}
    (h : ∀ pair ∈ details, Argument.Valid pair.1 pair.2)
    (hroom : buffer.length + (details.flatMap fun pair => argumentWords pair.1 pair.2).length ≤
      bufferCount) :
    details.foldlM (writeArgument bufferCount) buffer =
      some (buffer ++ details.flatMap fun pair => argumentWords pair.1 pair.2) := by
  induction details generalizing buffer with
  | nil => rw [List.flatMap_nil, List.append_nil]; rfl
  | cons pair details ih =>
      rw [List.flatMap_cons, List.length_append] at hroom
      rw [List.foldlM_cons, writeArgument_of_le (h pair List.mem_cons_self) (by omega)]
      refine (ih _ (fun pair hmem => h pair (List.mem_cons_of_mem _ hmem)) ?_).trans ?_
      · rw [List.length_append]
        omega
      · rw [List.flatMap_cons, List.append_assoc]

end Serialize

/-! ## Closures -/

/-- The words of a closure behind the header. -/
def Closure.body (signature : List Char) (closure : Closure) : List UInt32 :=
  (closure.details signature).flatMap fun pair => argumentWords pair.1 pair.2

def Closure.fds (signature : List Char) (closure : Closure) : List Int :=
  (closure.details signature).flatMap fun pair => argumentFds pair.1 pair.2

/-- The closure is one of a message with this signature, and its size fits into the header. -/
structure Closure.Sendable (signature : List Char) (closure : Closure) : Prop where
  args : codec.Valid (arguments signature) closure.args
  count : argCountForSignature signature ≤ maxArgs
  opcode : closure.opcode.toNat < 2 ^ 16
  size : 4 * ((closure.body signature).length + 2) < 2 ^ 16

theorem Closure.valid_of_mem {signature : List Char} {closure : Closure}
    (h : codec.Valid (arguments signature) closure.args) :
    ∀ pair ∈ closure.details signature, Argument.Valid pair.1 pair.2 := by
  rintro ⟨arg, value⟩ hmem
  exact List.forall₂_zip h hmem

/-- The second word of a message. -/
def sizeAndOpcode (size : Nat) (opcode : UInt32) : UInt32 :=
  UInt32.ofNat size <<< 16 ||| (opcode &&& 0xffff)

theorem toNat_low (word : UInt32) : (word &&& 0xffff).toNat = word.toNat % 2 ^ 16 := by
  rw [UInt32.toNat_and]
  exact Nat.and_two_pow_sub_one_eq_mod word.toNat 16

theorem toNat_sizeAndOpcode {size : Nat} (opcode : UInt32) (h : size < 2 ^ 16) :
    (sizeAndOpcode size opcode).toNat = 2 ^ 16 * size + opcode.toNat % 2 ^ 16 := by
  have hshift : (UInt32.ofNat size <<< 16).toNat = 2 ^ 16 * size := by
    rw [UInt32.toNat_shiftLeft, toNat_ofNat (by omega), Nat.shiftLeft_eq]
    show size * 2 ^ 16 % 2 ^ 32 = _
    omega
  rw [sizeAndOpcode, UInt32.toNat_or, hshift, toNat_low,
    ← Nat.two_pow_add_eq_or_of_lt (Nat.mod_lt _ (by decide))]

theorem serializeClosure_eq {closure : Closure} {details : List (ArgumentDetails × Argument)}
    {bufferCount : Nat} {body : List UInt32} (hcount : 2 ≤ bufferCount)
    (hfold : details.foldlM (writeArgument bufferCount) [0, 0] = some ([0, 0] ++ body)) :
    serializeClosure closure details bufferCount =
      some (closure.senderId :: sizeAndOpcode (4 * (body.length + 2)) closure.opcode :: body) := by
  rw [serializeClosure, if_neg (Nat.not_lt.mpr hcount), hfold]
  rfl

/-- The words that are written for a closure. -/
def Closure.buffer (signature : List Char) (closure : Closure) : List UInt32 :=
  closure.senderId :: sizeAndOpcode (4 * ((closure.body signature).length + 2)) closure.opcode ::
    closure.body signature

theorem copyFds_eq (details : List (ArgumentDetails × Argument)) :
    copyFds details = details.flatMap fun pair => argumentFds pair.1 pair.2 := by
  induction details with
  | nil => rfl
  | cons pair details ih =>
      rw [List.flatMap_cons, ← ih, copyFds, copyFds, argumentFds]
      by_cases hfd : pair.1.type = .fd
      · rw [List.filter_cons_of_pos (by simpa using hfd), if_pos hfd]
        rfl
      · rw [List.filter_cons_of_neg (by simpa using hfd), if_neg hfd]
        rfl

section Send

variable {signature : List Char} {closure : Closure}

theorem bufferSize_eq (h : closure.Sendable signature) :
    bufferSizeForClosure (closure.details signature) = (closure.body signature).length + 2 := by
  have hsize := h.size
  have hsum : ((closure.details signature).map fun pair => argumentSize pair.1 pair.2).sum =
      (closure.body signature).length := by
    rw [Closure.body, List.length_flatMap]
    congr 1
    refine List.map_congr_left fun pair hmem => ?_
    exact argumentSize_eq (Closure.valid_of_mem h.args pair hmem)
  rw [bufferSizeForClosure, hsum]
  exact Nat.mod_eq_of_lt (by omega)

theorem wlClosureSend_eq (h : closure.Sendable signature) :
    wlClosureSend signature closure =
      some (wordBytes (closure.buffer signature), closure.fds signature) := by
  have hfold := writeArguments_of_le [0, 0] (Closure.valid_of_mem h.args)
    (Nat.le_of_eq (Nat.add_comm 2 (closure.body signature).length))
  rw [wlClosureSend, bufferSize_eq h, serializeClosure_eq (Nat.le_add_left 2 _) hfold, copyFds_eq]
  rfl

@[simp] theorem length_buffer (signature : List Char) (closure : Closure) :
    (closure.buffer signature).length = (closure.body signature).length + 2 := rfl

/-- The message is read whatever follows it, and its header gives its size. -/
theorem wlConnectionDemarshal_buffer (h : closure.Sendable signature) (bytes : List UInt8)
    (fds : List Int) :
    wlConnectionDemarshal (wordBytes (closure.buffer signature)).length signature
        (wordBytes (closure.buffer signature) ++ bytes) (closure.fds signature ++ fds) =
      .ok (closure, fds) := by
  have hread := Codec.readFields_writeFields (C := codec) h.args ⟨[], fds⟩
  rw [writeFields_eq] at hread
  have hopcode : sizeAndOpcode (4 * ((closure.body signature).length + 2)) closure.opcode &&& 0xffff =
      closure.opcode := by
    have hlow := h.opcode
    apply UInt32.toNat_inj.mp
    rw [toNat_low, toNat_sizeAndOpcode _ h.size]
    omega
  have hshort : ¬ (wordBytes (closure.buffer signature)).length < 8 := by
    rw [length_wordBytes, length_buffer]
    omega
  rw [wlConnectionDemarshal, if_neg hshort, if_neg (Nat.not_lt.mpr h.count)]
  dsimp only
  rw [List.take_left, bytesWords_wordBytes]
  simp only [List.append_nil] at hread
  have hargs : readFields readArgument (arguments signature)
      ⟨(closure.buffer signature).drop 2, closure.fds signature ++ fds⟩ =
        .ok (closure.args, ⟨[], fds⟩) := hread
  rw [hargs]
  exact congrArg (fun opcode => Except.ok (Closure.mk closure.senderId opcode closure.args, fds)) hopcode

/-- A message that has been read can be written, in no more bytes than it had. -/
theorem sendable_of_demarshal {size : Nat} {bytes : List UInt8} {fdsIn fds : List Int}
    (hsize : size < 2 ^ 16)
    (h : wlConnectionDemarshal size signature bytes fdsIn = .ok (closure, fds)) :
    closure.Sendable signature ∧ (wordBytes (closure.buffer signature)).length ≤ size ∧
      closure.fds signature ++ fds = fdsIn := by
  rw [wlConnectionDemarshal] at h
  split at h
  · cases h
  · next hheader =>
    split at h
    · cases h
    · next hcount =>
      dsimp only at h
      split at h
      · cases h
      · next args rest hread =>
        cases h
        have hread' : readFields codec.read (arguments signature)
          ⟨(bytesWords (bytes.take size)).drop 2, fdsIn⟩ = .ok (args, rest) := hread
        obtain ⟨hvalid, hmeasure⟩ := Codec.readFields_sound measured hread'
        rw [writeFields_eq] at hmeasure
        obtain ⟨hwords, hfds⟩ := Prod.mk.inj hmeasure
        simp only [List.length_append, List.length_drop, length_bytesWords, List.length_take]
          at hwords
        have hbody : 4 * ((Closure.body signature ⟨(bytesWords (bytes.take size)).getD 0 0,
            (bytesWords (bytes.take size)).getD 1 0 &&& 0xffff, args⟩).length + 2) ≤ size := by
          show 4 * ((((arguments signature).zip args).flatMap fun pair =>
            argumentWords pair.1 pair.2).length + 2) ≤ size
          omega
        refine ⟨⟨hvalid, Nat.le_of_not_lt hcount, ?_, by omega⟩, ?_, hfds⟩
        · rw [toNat_low]
          exact Nat.mod_lt _ (by decide)
        · rw [length_wordBytes]
          exact hbody

end Send

theorem le_of_demarshal {signature : List Char} {size : Nat} {bytes : List UInt8} {fdsIn : List Int}
    {result : Closure × List Int} (h : wlConnectionDemarshal size signature bytes fdsIn = .ok result) :
    8 ≤ size := by
  by_contra hlt
  rw [wlConnectionDemarshal, if_pos (Nat.lt_of_not_le hlt)] at h
  cases h

/-- Bytes and file descriptors that come later make no difference. -/
theorem wlConnectionDemarshal_later {signature : List Char} {closure : Closure} {size : Nat}
    {bytes : List UInt8} {fdsIn fds : List Int} (hsize : size ≤ bytes.length) (later : List UInt8)
    (later' : List Int) (h : wlConnectionDemarshal size signature bytes fdsIn = .ok (closure, fds)) :
    wlConnectionDemarshal size signature (bytes ++ later) (fdsIn ++ later') =
      .ok (closure, fds ++ later') := by
  unfold wlConnectionDemarshal at h ⊢
  rw [List.take_append_of_le_length hsize]
  split at h
  · cases h
  · next hheader =>
    rw [if_neg hheader]
    split at h
    · cases h
    · next hcount =>
      rw [if_neg hcount]
      dsimp only at h ⊢
      split at h
      · cases h
      · next hread =>
        cases h
        have hlater := readFields_map (f := fun input : Input => ⟨input.words, input.fds ++ later'⟩)
          (fun d a s t hd => readArgument_later later' hd) hread
        rw [hlater]

/-! ## Headers -/

theorem parseHeader_buffer {signature : List Char} {closure : Closure}
    (h : closure.Sendable signature) (bytes : List UInt8) :
    Proxy.parseHeader (wordBytes (closure.buffer signature) ++ bytes) =
      ⟨closure.senderId.toNat, (wordBytes (closure.buffer signature)).length,
        closure.opcode.toNat⟩ := by
  have hopcode := h.opcode
  have hsize := h.size
  have hbuffer : wordBytes (closure.buffer signature) ++ bytes =
      toLittle 4 closure.senderId.toNat ++ (toLittle 4 (sizeAndOpcode
        (4 * ((closure.body signature).length + 2)) closure.opcode).toNat ++
          (wordBytes (closure.body signature) ++ bytes)) := by
    rw [Closure.buffer, wordBytes_cons, wordBytes_cons, List.append_assoc, List.append_assoc]
  have hfirst : ((wordBytes (closure.buffer signature)) ++ bytes).take 4 =
      toLittle 4 closure.senderId.toNat := by
    rw [hbuffer]
    exact List.take_left' (length_toLittle 4 _)
  have hsecond : (((wordBytes (closure.buffer signature)) ++ bytes).drop 4).take 4 =
      toLittle 4 (sizeAndOpcode (4 * ((closure.body signature).length + 2)) closure.opcode).toNat := by
    rw [hbuffer, List.drop_left' (length_toLittle 4 _)]
    exact List.take_left' (length_toLittle 4 _)
  have hlength : (wordBytes (closure.buffer signature)).length =
      4 * ((closure.body signature).length + 2) := by
    rw [length_wordBytes, length_buffer]
  rw [Proxy.parseHeader, hfirst, hsecond, ofLittle_toLittle, ofLittle_toLittle,
    toNat_sizeAndOpcode _ hsize, hlength, Proxy.Header.mk.injEq]
  have hid := closure.senderId.toNat_lt
  refine ⟨?_, ?_, ?_⟩ <;> omega

/-- A closure that is sent is read again by the peer, whose header tells it how many bytes to look
at, and nothing is taken of what follows. -/
theorem demarshal_send {signature : List Char} {closure : Closure} (h : closure.Sendable signature)
    (later : List UInt8) (fds : List Int) :
    ∃ bytes sent, wlClosureSend signature closure = some (bytes, sent) ∧
      Proxy.parseHeader (bytes ++ later) =
        ⟨closure.senderId.toNat, bytes.length, closure.opcode.toNat⟩ ∧
      wlConnectionDemarshal bytes.length signature (bytes ++ later) (sent ++ fds) =
        .ok (closure, fds) :=
  ⟨_, _, wlClosureSend_eq h, parseHeader_buffer h later, wlConnectionDemarshal_buffer h later fds⟩

/-- `wl_display@get_registry`. -/
def getRegistry : Closure := ⟨1, 1, [.id 2]⟩

theorem getRegistry_sendable : getRegistry.Sendable ['n'] :=
  ⟨.cons (.newId (by decide)) .nil, by decide, by decide, by decide⟩

theorem demarshal_send_getRegistry :
    ∃ bytes sent, wlClosureSend ['n'] getRegistry = some (bytes, sent) ∧
      Proxy.parseHeader (bytes ++ [7]) = ⟨1, bytes.length, 1⟩ ∧
      wlConnectionDemarshal bytes.length ['n'] (bytes ++ [7]) (sent ++ [5]) =
        .ok (getRegistry, [5]) :=
  demarshal_send getRegistry_sendable [7] [5]

/-- A received message that is sent on does not overflow, is not longer than it was, takes the file
descriptors that came with it along, and means the same to the next peer. -/
theorem send_demarshal {signature : List Char} {closure : Closure} {size : Nat}
    {received : List UInt8} {fdsIn fds : List Int} (hsize : size < 2 ^ 16)
    (h : wlConnectionDemarshal size signature received fdsIn = .ok (closure, fds)) :
    ∃ bytes sent, wlClosureSend signature closure = some (bytes, sent) ∧ bytes.length ≤ size ∧
      sent ++ fds = fdsIn ∧ ∀ later fds',
        Proxy.parseHeader (bytes ++ later) =
          ⟨closure.senderId.toNat, bytes.length, closure.opcode.toNat⟩ ∧
        wlConnectionDemarshal bytes.length signature (bytes ++ later) (sent ++ fds') =
          .ok (closure, fds') := by
  obtain ⟨hsendable, hlength, hfds⟩ := sendable_of_demarshal hsize h
  exact ⟨_, _, wlClosureSend_eq hsendable, hlength, hfds, fun later fds' =>
    ⟨parseHeader_buffer hsendable later, wlConnectionDemarshal_buffer hsendable later fds'⟩⟩

/-- The word behind the argument is left out. -/
theorem send_demarshal_getRegistry :
    ∃ bytes sent, wlClosureSend ['n'] getRegistry = some (bytes, sent) ∧ bytes.length ≤ 16 ∧
      sent ++ [5] = [5] ∧ ∀ later fds',
        Proxy.parseHeader (bytes ++ later) = ⟨1, bytes.length, 1⟩ ∧
        wlConnectionDemarshal bytes.length ['n'] (bytes ++ later) (sent ++ fds') =
          .ok (getRegistry, fds') := by
  have hread : wlConnectionDemarshal 16 ['n'] [1, 0, 0, 0, 1, 0, 16, 0, 2, 0, 0, 0, 9, 9, 9, 9] [5] =
      .ok (getRegistry, [5]) := rfl
  exact send_demarshal (by decide) hread

end Stratus.Capture.Wire
