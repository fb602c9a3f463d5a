import Mathlib.Data.List.Basic
import Mathlib.Data.List.Induction

/-! The text of a JavaScript program in units of 16 bits, and the two functions that write any text as a
part of an address and read it again. -/
namespace Stratus.Lib

abbrev Units := List UInt16

namespace Units

def utf16 (c : Char) : Units :=
  if c.toNat < 0x10000 then [UInt16.ofNat c.toNat]
  else
    [UInt16.ofNat (0xd800 + (c.toNat - 0x10000) / 0x400), UInt16.ofNat (0xdc00 + (c.toNat - 0x10000) % 0x400)]

/-- The text of these characters. -/
def ofChars (cs : List Char) : Units := cs.flatMap utf16

/-- A string literal. -/
def lit (text : String) : Units := ofChars text.toList

def isHigh (u : UInt16) : Bool := 0xd800 ≤ u.toNat && u.toNat ≤ 0xdbff

def isLow (u : UInt16) : Bool := 0xdc00 ≤ u.toNat && u.toNat ≤ 0xdfff

/-- The first half of a pair without a second, or the second without a first. -/
def LoneSurrogate (s : Units) : Prop :=
  ∃ before u after, s = before ++ u :: after ∧
    ((isHigh u = true ∧ ∀ v ∈ after.head?, isLow v = false) ∨
      (isLow u = true ∧ ∀ v ∈ before.getLast?, isHigh v = false))

/-- The characters of a text without lone surrogates. -/
def codePoints : Units → Option (List Char)
  | [] => some []
  | [u] => if isHigh u || isLow u then none else some [Char.ofNat u.toNat]
  | u :: v :: rest =>
      if isHigh u then
        if isLow v then
          (codePoints rest).map fun cs =>
            Char.ofNat (0x10000 + (u.toNat - 0xd800) * 0x400 + (v.toNat - 0xdc00)) :: cs
        else none
      else if isLow u then none
      else (codePoints (v :: rest)).map fun cs => Char.ofNat u.toNat :: cs

/-! ### Encoding -/

/-- `A-Z a-z 0-9 - _ . ! ~ * ' ( )`. -/
def unreserved (c : Char) : Bool := c.isAlphanum || "-_.!~*'()".toList.contains c

def hexDigit (n : Nat) : UInt16 := if n < 10 then UInt16.ofNat (48 + n) else UInt16.ofNat (55 + n)

def percent (b : UInt8) : Units := [37, hexDigit (b.toNat / 16), hexDigit (b.toNat % 16)]

def escape (c : Char) : Units :=
  if unreserved c then utf16 c else (String.utf8EncodeChar c).flatMap percent

/-- `none` is a `URIError`. -/
def encodeURIComponent (s : Units) : Option Units := (codePoints s).map fun cs => cs.flatMap escape

/-! ### Decoding -/

inductive Token where
  | unit (u : UInt16)
  | octet (b : UInt8)

def hexValue (u : UInt16) : Option Nat :=
  if 48 ≤ u.toNat ∧ u.toNat ≤ 57 then some (u.toNat - 48)
  else if 65 ≤ u.toNat ∧ u.toNat ≤ 70 then some (u.toNat - 55)
  else if 97 ≤ u.toNat ∧ u.toNat ≤ 102 then some (u.toNat - 87)
  else none

/-- Each escape is an octet. -/
def tokens : Units → Option (List Token)
  | [] => some []
  | u :: rest =>
      if u = 37 then
        match rest with
        | high :: low :: rest =>
            (hexValue high).bind fun high => (hexValue low).bind fun low =>
              (tokens rest).map fun ts => .octet (UInt8.ofNat (16 * high + low)) :: ts
        | _ => none
      else (tokens rest).map fun ts => .unit u :: ts

def octets : List Token → List UInt8
  | .octet b :: rest => b :: octets rest
  | _ => []

/-- `read` of the tokens belong to the character before. -/
def readTokens (read : Nat) : List Token → Option Units
  | [] => some []
  | t :: rest =>
      match read, t with
      | read + 1, _ => readTokens read rest
      | 0, .unit u => (readTokens 0 rest).map fun s => u :: s
      | 0, .octet b =>
          ((b :: octets rest).toByteArray.utf8DecodeChar? 0).bind fun c =>
            (readTokens (c.utf8Size - 1) rest).map fun s => utf16 c ++ s

/-- `none` is a `URIError`. -/
def decodeURIComponent (s : Units) : Option Units := (tokens s).bind (readTokens 0)

/-! ### Characters and their units -/

theorem char_bounds (c : Char) : c.toNat < 0xd800 ∨ (0xdfff < c.toNat ∧ c.toNat < 0x110000) := c.valid

theorem toNat_ofNat {n : Nat} (h : n < 0xd800 ∨ (0xdfff < n ∧ n < 0x110000)) : (Char.ofNat n).toNat = n := by
  have hvalid : n.isValidChar := h
  rw [Char.ofNat, dif_pos hvalid]
  rfl

theorem toNat_unit {n : Nat} (h : n < 0x10000) : (UInt16.ofNat n).toNat = n := by
  rw [UInt16.toNat_ofNat']
  exact Nat.mod_eq_of_lt h

theorem utf16_small {c : Char} (h : c.toNat < 0x10000) : ∃ u : UInt16, utf16 c = [u] ∧ u.toNat = c.toNat ∧
    isHigh u = false ∧ isLow u = false := by
  refine ⟨UInt16.ofNat c.toNat, if_pos h, toNat_unit h, ?_, ?_⟩
  · unfold isHigh
    rw [toNat_unit h, Bool.and_eq_false_iff, decide_eq_false_iff_not, decide_eq_false_iff_not]
    have hbounds := char_bounds c
    omega
  · unfold isLow
    rw [toNat_unit h, Bool.and_eq_false_iff, decide_eq_false_iff_not, decide_eq_false_iff_not]
    have hbounds := char_bounds c
    omega

theorem utf16_large {c : Char} (h : 0x10000 ≤ c.toNat) : ∃ u v : UInt16, utf16 c = [u, v] ∧
    isHigh u = true ∧ isLow v = true ∧
      0x10000 + (u.toNat - 0xd800) * 0x400 + (v.toNat - 0xdc00) = c.toNat := by
  have hbounds := char_bounds c
  have hhigh : (UInt16.ofNat (0xd800 + (c.toNat - 0x10000) / 0x400)).toNat =
      0xd800 + (c.toNat - 0x10000) / 0x400 := toNat_unit (by omega)
  have hlow : (UInt16.ofNat (0xdc00 + (c.toNat - 0x10000) % 0x400)).toNat =
      0xdc00 + (c.toNat - 0x10000) % 0x400 := toNat_unit (by omega)
  refine ⟨_, _, if_neg (Nat.not_lt.mpr h), ?_, ?_, ?_⟩
  · unfold isHigh
    rw [hhigh, Bool.and_eq_true, decide_eq_true_eq, decide_eq_true_eq]
    omega
  · unfold isLow
    rw [hlow, Bool.and_eq_true, decide_eq_true_eq, decide_eq_true_eq]
    omega
  · rw [hhigh, hlow]
    omega

theorem codePoints_unit {u : UInt16} (hhigh : isHigh u = false) (hlow : isLow u = false) (rest : Units) :
    codePoints (u :: rest) = (codePoints rest).map fun cs => Char.ofNat u.toNat :: cs := by
  cases rest with
  | nil =>
      change (if isHigh u || isLow u then none else some [Char.ofNat u.toNat]) = _
      rw [hhigh, hlow]
      rfl
  | cons v rest =>
      rw [codePoints, hhigh, hlow]
      rfl

theorem codePoints_utf16 (c : Char) (rest : Units) :
    codePoints (utf16 c ++ rest) = (codePoints rest).map fun cs => c :: cs := by
  obtain h | h := Nat.lt_or_ge c.toNat 0x10000
  · obtain ⟨u, hunits, hnat, hhigh, hlow⟩ := utf16_small h
    rw [hunits, List.singleton_append, codePoints_unit hhigh hlow, hnat, Char.ofNat_toNat]
  · obtain ⟨u, v, hunits, hhigh, hlow, hnat⟩ := utf16_large h
    rw [hunits, List.cons_append, List.singleton_append, codePoints, if_pos hhigh, if_pos hlow, hnat,
      Char.ofNat_toNat]

theorem ofChars_cons (c : Char) (cs : List Char) : ofChars (c :: cs) = utf16 c ++ ofChars cs :=
  List.flatMap_cons

theorem codePoints_ofChars (cs : List Char) : codePoints (ofChars cs) = some cs := by
  induction cs with
  | nil => rfl
  | cons c cs ih =>
      rw [ofChars_cons, codePoints_utf16, ih]
      rfl

theorem exists_utf16_unit {u : UInt16} (hhigh : isHigh u = false) (hlow : isLow u = false) :
    ∃ c, utf16 c = [u] := by
  unfold isHigh at hhigh
  unfold isLow at hlow
  rw [Bool.and_eq_false_iff, decide_eq_false_iff_not, decide_eq_false_iff_not] at hhigh hlow
  have hlt : u.toNat < 0x10000 := u.toNat_lt
  have hnat : (Char.ofNat u.toNat).toNat = u.toNat := toNat_ofNat (by omega)
  refine ⟨Char.ofNat u.toNat, ?_⟩
  rw [utf16, hnat, if_pos hlt, UInt16.ofNat_toNat]

theorem exists_utf16_pair {u v : UInt16} (hhigh : isHigh u = true) (hlow : isLow v = true) :
    ∃ c, utf16 c = [u, v] := by
  unfold isHigh at hhigh
  unfold isLow at hlow
  rw [Bool.and_eq_true, decide_eq_true_eq, decide_eq_true_eq] at hhigh hlow
  have hnat : (Char.ofNat (0x10000 + (u.toNat - 0xd800) * 0x400 + (v.toNat - 0xdc00))).toNat =
      0x10000 + (u.toNat - 0xd800) * 0x400 + (v.toNat - 0xdc00) := toNat_ofNat (by omega)
  refine ⟨Char.ofNat (0x10000 + (u.toNat - 0xd800) * 0x400 + (v.toNat - 0xdc00)), ?_⟩
  rw [utf16, hnat, if_neg (by omega)]
  have hu : 0xd800 + (0x10000 + (u.toNat - 0xd800) * 0x400 + (v.toNat - 0xdc00) - 0x10000) / 0x400 = u.toNat := by
    omega
  have hv : 0xdc00 + (0x10000 + (u.toNat - 0xd800) * 0x400 + (v.toNat - 0xdc00) - 0x10000) % 0x400 = v.toNat := by
    omega
  rw [hu, hv, UInt16.ofNat_toNat, UInt16.ofNat_toNat]

theorem not_isLow {u : UInt16} (h : isHigh u = true) : isLow u = false := by
  unfold isHigh at h
  unfold isLow
  rw [Bool.and_eq_true, decide_eq_true_eq, decide_eq_true_eq] at h
  rw [Bool.and_eq_false_iff, decide_eq_false_iff_not, decide_eq_false_iff_not]
  omega

/-- What is lone in a text is lone behind another one that does not end within a pair. -/
theorem LoneSurrogate.behind {front s : Units} (h : LoneSurrogate s)
    (hfront : ∀ u ∈ front.getLast?, isHigh u = false) : LoneSurrogate (front ++ s) := by
  obtain ⟨before, v, after, rfl, hlone⟩ := h
  refine ⟨front ++ before, v, after, (List.append_assoc _ _ _).symm, hlone.imp_right ?_⟩
  rintro ⟨hlow, hbefore⟩
  refine ⟨hlow, fun u hu => ?_⟩
  cases before with
  | nil =>
      rw [List.append_nil] at hu
      exact hfront u hu
  | cons c before =>
      rw [List.getLast?_append_of_ne_nil _ (List.cons_ne_nil _ _)] at hu
      exact hbefore u hu

theorem LoneSurrogate.before {s back : Units} (h : LoneSurrogate s)
    (hback : ∀ u ∈ back.head?, isLow u = false) : LoneSurrogate (s ++ back) := by
  obtain ⟨before, v, after, rfl, hlone⟩ := h
  refine ⟨before, v, after ++ back, by rw [List.append_assoc, List.cons_append], hlone.imp_left ?_⟩
  rintro ⟨hhigh, hafter⟩
  refine ⟨hhigh, fun u hu => ?_⟩
  cases after with
  | nil => exact hback u hu
  | cons c after => exact hafter u hu

/-- A text without lone surrogates is made of characters. -/
theorem exists_ofChars {s : Units} (h : ¬ LoneSurrogate s) : ∃ cs, s = ofChars cs := by
  induction hlength : s.length using Nat.strongRecOn generalizing s with
  | _ n ih =>
      cases s with
      | nil => exact ⟨[], rfl⟩
      | cons u rest =>
          rw [List.length_cons] at hlength
          cases hhigh : isHigh u with
          | false =>
              have hlow : isLow u = false := by
                rw [Bool.eq_false_iff]
                exact fun hlow => h ⟨[], u, rest, rfl, .inr ⟨hlow, nofun⟩⟩
              have hrest : ¬ LoneSurrogate rest := by
                intro hlone
                refine h (LoneSurrogate.behind hlone ?_ : LoneSurrogate ([u] ++ rest))
                rintro _ ⟨⟩
                exact hhigh
              obtain ⟨cs, rfl⟩ := ih rest.length (by omega) hrest rfl
              obtain ⟨c, hc⟩ := exists_utf16_unit hhigh hlow
              exact ⟨c :: cs, by rw [ofChars_cons, hc]; rfl⟩
          | true =>
              have hnext : ∃ v ∈ rest.head?, isLow v = true := by
                by_contra hnone
                refine h ⟨[], u, rest, rfl, .inl ⟨hhigh, fun v hv => ?_⟩⟩
                rw [Bool.eq_false_iff]
                exact fun hlow => hnone ⟨v, hv, hlow⟩
              obtain ⟨v, hv, hlow⟩ := hnext
              obtain ⟨after, rfl⟩ := List.head?_eq_some_iff.mp hv
              rw [List.length_cons] at hlength
              -- the pair ends before what follows
              have hvhigh : isHigh v = false := by
                rw [Bool.eq_false_iff]
                intro hvhigh
                rw [not_isLow hvhigh] at hlow
                cases hlow
              have hafter : ¬ LoneSurrogate after := by
                intro hlone
                refine h (LoneSurrogate.behind hlone ?_ : LoneSurrogate ([u, v] ++ after))
                rintro _ ⟨⟩
                exact hvhigh
              obtain ⟨cs, rfl⟩ := ih after.length (by omega) hafter rfl
              obtain ⟨c, hc⟩ := exists_utf16_pair hhigh hlow
              exact ⟨c :: cs, by rw [ofChars_cons, hc]; rfl⟩

/-! ### What is written is read again -/

theorem hexValue_hexDigit {n : Nat} (h : n < 16) : hexValue (hexDigit n) = some n := by
  have hall : ∀ n < 16, hexValue (hexDigit n) = some n := by decide
  exact hall n h

theorem isAlphanum_range {c : Char} (h : c.isAlphanum = true) : '0'.toNat ≤ c.toNat ∧ c.toNat ≤ 'z'.toNat := by
  have hinside {first last : Char} (hfirst : first.val ≤ c.val) (hlast : c.val ≤ last.val)
      (hzero : '0'.toNat ≤ first.toNat) (hz : last.toNat ≤ 'z'.toNat) :
      '0'.toNat ≤ c.toNat ∧ c.toNat ≤ 'z'.toNat :=
    ⟨Nat.le_trans hzero (UInt32.le_iff_toNat_le.mp hfirst), Nat.le_trans (UInt32.le_iff_toNat_le.mp hlast) hz⟩
  obtain halpha | hdigit := Bool.or_eq_true_iff.mp h
  · obtain hupper | hlower := Bool.or_eq_true_iff.mp halpha
    · obtain ⟨hfirst, hlast⟩ := of_decide_eq_true hupper
      exact hinside hfirst hlast (by decide) (by decide)
    · obtain ⟨hfirst, hlast⟩ := Bool.and_eq_true_iff.mp hlower
      exact hinside (of_decide_eq_true hfirst) (of_decide_eq_true hlast) (by decide) (by decide)
  · obtain ⟨hfirst, hlast⟩ := Char.isDigit_iff_toNat.mp hdigit
    exact ⟨hfirst, Nat.le_trans hlast (by decide)⟩

theorem unreserved_unit {c : Char} (h : unreserved c = true) : ∃ u : UInt16, utf16 c = [u] ∧ u ≠ 37 ∧ u ≠ 47 := by
  have hrange : c.toNat < 0x10000 ∧ c.toNat ≠ 37 ∧ c.toNat ≠ 47 := by
    unfold unreserved at h
    obtain h | h := Bool.or_eq_true_iff.mp h
    · have hzero : '0'.toNat = 48 := rfl
      have hz : 'z'.toNat = 122 := rfl
      have hrange := isAlphanum_range h
      omega
    · have hall : "-_.!~*'()".toList.all (fun d => d.toNat < 0x10000 ∧ d.toNat ≠ 37 ∧ d.toNat ≠ 47) = true := by
        decide
      exact of_decide_eq_true (List.all_eq_true.mp hall c (List.contains_iff_mem.mp h))
  obtain ⟨u, hunits, hnat, -⟩ := utf16_small hrange.1
  refine ⟨u, hunits, ?_, ?_⟩
  · rintro rfl
    exact hrange.2.1 hnat.symm
  · rintro rfl
    exact hrange.2.2 hnat.symm

theorem tokens_unit {u : UInt16} (h : u ≠ 37) (rest : Units) :
    tokens (u :: rest) = (tokens rest).map fun ts => .unit u :: ts := by
  rw [tokens.eq_def]
  exact if_neg h

theorem tokens_percent (b : UInt8) (rest : Units) :
    tokens (percent b ++ rest) = (tokens rest).map fun ts => .octet b :: ts := by
  have hb : b.toNat < 256 := b.toNat_lt
  rw [percent, List.cons_append, List.cons_append, List.cons_append, List.nil_append, tokens, if_pos rfl,
    hexValue_hexDigit (by omega), hexValue_hexDigit (by omega), Option.bind_some, Option.bind_some,
    Nat.div_add_mod, UInt8.ofNat_toNat]

theorem tokens_octets (bs : List UInt8) (rest : Units) :
    tokens (bs.flatMap percent ++ rest) = (tokens rest).map fun ts => bs.map .octet ++ ts := by
  induction bs with
  | nil => exact Option.map_id'.symm
  | cons b bs ih =>
      rw [List.flatMap_cons, List.append_assoc, tokens_percent, ih, Option.map_map]
      rfl

/-- The tokens of a character that has been written. -/
def charTokens (c : Char) : List Token :=
  if unreserved c then (utf16 c).map .unit else (String.utf8EncodeChar c).map .octet

theorem tokens_escape (cs : List Char) : tokens (cs.flatMap escape) = some (cs.flatMap charTokens) := by
  induction cs with
  | nil => rfl
  | cons c cs ih =>
      rw [List.flatMap_cons, List.flatMap_cons, escape, charTokens]
      split
      · next h =>
        obtain ⟨u, hunits, hpercent, -⟩ := unreserved_unit h
        rw [hunits, List.singleton_append, tokens_unit hpercent, ih]
        rfl
      · rw [tokens_octets, ih]
        rfl

theorem octets_append (bs : List UInt8) (ts : List Token) : octets (bs.map .octet ++ ts) = bs ++ octets ts := by
  induction bs with
  | nil => rfl
  | cons b bs ih => exact congrArg (b :: ·) ih

theorem readTokens_skip (skipped rest : List Token) :
    readTokens skipped.length (skipped ++ rest) = readTokens 0 rest := by
  induction skipped with
  | nil => rfl
  | cons t skipped ih => exact ih

theorem readTokens_char (c : Char) (rest : List Token) :
    readTokens 0 (charTokens c ++ rest) = (readTokens 0 rest).map fun s => utf16 c ++ s := by
  unfold charTokens
  split
  · next h =>
    obtain ⟨u, hunits, -⟩ := unreserved_unit h
    rw [hunits]
    rfl
  · have hlength := String.length_utf8EncodeChar c
    have hdecode := ByteArray.utf8DecodeChar?_utf8EncodeChar_append (b := (octets rest).toByteArray) (c := c)
    obtain ⟨b, bs, hbytes⟩ := List.exists_cons_of_length_pos (hlength.symm ▸ c.utf8Size_pos)
    rw [hbytes] at hlength hdecode ⊢
    rw [List.length_cons] at hlength
    rw [← List.toByteArray_append, List.cons_append] at hdecode
    rw [List.map_cons, List.cons_append, readTokens, octets_append, hdecode, Option.bind_some, ← hlength, Nat.add_sub_cancel,
      ← List.length_map (f := Token.octet), readTokens_skip]

theorem readTokens_chars (cs : List Char) : readTokens 0 (cs.flatMap charTokens) = some (ofChars cs) := by
  induction cs with
  | nil => rfl
  | cons c cs ih =>
      rw [List.flatMap_cons, readTokens_char, ih, ofChars_cons]
      rfl

/-- The two functions undo each other. -/
theorem decode_encode {s : Units} (h : ¬ LoneSurrogate s) :
    ∃ written, encodeURIComponent s = some written ∧ decodeURIComponent written = some s := by
  obtain ⟨cs, rfl⟩ := exists_ofChars h
  refine ⟨cs.flatMap escape, ?_, ?_⟩
  · rw [encodeURIComponent, codePoints_ofChars]
    rfl
  · rw [decodeURIComponent, tokens_escape, Option.bind_some, readTokens_chars]

theorem hexDigit_ne {n : Nat} (h : n < 16) : hexDigit n ≠ 47 := by
  have hall : ∀ n < 16, hexDigit n ≠ 47 := by decide
  exact hall n h

/-- What is written is one segment. -/
theorem slash_not_mem_encode {s written : Units} (h : encodeURIComponent s = some written) : 47 ∉ written := by
  obtain ⟨cs, -, rfl⟩ := Option.map_eq_some_iff.mp h
  intro hmem
  obtain ⟨c, -, hc⟩ := List.mem_flatMap.mp hmem
  unfold escape at hc
  split at hc
  · next hunreserved =>
    obtain ⟨u, hunits, -, hslash⟩ := unreserved_unit hunreserved
    rw [hunits] at hc
    exact hslash (List.mem_singleton.mp hc).symm
  · obtain ⟨b, -, hb⟩ := List.mem_flatMap.mp hc
    have hlt : b.toNat < 256 := b.toNat_lt
    obtain hb | hb | hb := (by simpa [percent] using hb :
        (47 : UInt16) = hexDigit (b.toNat / 16) ∨ (47 : UInt16) = hexDigit (b.toNat % 16) ∨ False)
    · exact hexDigit_ne (by omega) hb.symm
    · exact hexDigit_ne (by omega) hb.symm
    · exact hb

end Units

end Stratus.Lib
