import Stratus.Lib.Pattern
import Stratus.Lib.JsValue
import Mathlib.Algebra.Order.Ring.Rat
import Mathlib.Tactic.Linarith
import Mathlib.Data.List.Induction

/-! `steamScanner.ts` and `checkCompletedGames` of `dockerTrigger.ts`: whether a game is installed, as
each of them reads its manifest. -/
namespace Stratus.Backend.Manifest

open Stratus.Lib

abbrev Text := List Char

/-- `\s`, and what `trim` takes away. -/
def isSpace (c : Char) : Bool :=
  (9 ≤ c.toNat && c.toNat ≤ 13) || c.toNat = 0x20 || c.toNat = 0xa0 || c.toNat = 0x1680 ||
    (0x2000 ≤ c.toNat && c.toNat ≤ 0x200a) || c.toNat = 0x2028 || c.toNat = 0x2029 ||
    c.toNat = 0x202f || c.toNat = 0x205f || c.toNat = 0x3000 || c.toNat = 0xfeff

/-- `\w`. -/
def isWord (c : Char) : Bool := c.isAlphanum || c = '_'

/-- `.` is all but these. -/
def isLineEnd (c : Char) : Bool := c = '\n' || c = '\r' || c.toNat = 0x2028 || c.toNat = 0x2029

def trim (text : Text) : Text := ((text.dropWhile isSpace).reverse.dropWhile isSpace).reverse

/-- `replace(/\r$/, "")`. -/
def dropReturn (text : Text) : Text := if text.getLast? = some '\r' then text.dropLast else text

/-- `parseInt(text, 10)`. -/
def parseInt (text : Text) : Option JsNumber := JsNumber.parseInt (text.dropWhile isSpace)

/-- `/^"(\w+)"\s+"(.+)"$/`. -/
def entryPattern : Pattern :=
  [.one (· = '"'), .run true 1 isWord, .one (· = '"'), .run false 1 isSpace, .one (· = '"'),
    .run true 1 (fun c => !isLineEnd c), .one (· = '"')]

/-- The numbers are `none` for `NaN`. -/
structure DiscoveredGame where
  appid : JsNumber
  name : Text
  installdir : Text
  sizeOnDisk : Option JsNumber
  lastUpdated : Option JsNumber
  stateFlags : Option JsNumber
deriving DecidableEq

/-- The entries that have been read. -/
abbrev Entries := Text → Option Text

def readLine (result : Entries) (line : Text) : Entries :=
  match entryPattern.exec (dropReturn (trim line)) with
  | some [key, value] => fun k => if k = key then some value else result k
  | _ => result

/-- `result.key || other`. -/
def Entries.or (result : Entries) (key other : Text) : Text :=
  match result key with
  | some value => if value = [] then other else value
  | none => other

def readLines (content : Text) : Entries := (content.splitOn '\n').foldl readLine fun _ => none

/-- `numberText` is the text of a number. -/
def parseAcfFile (numberText : JsNumber → Text) (content : Text) : Option DiscoveredGame :=
  let result := readLines content
  match parseInt (result.or "appid".toList "0".toList) with
  | none => none
  | some appid =>
      if appid = .finite 0 then none
      else
        some
          { appid := appid
            name := result.or "Name".toList ("Unknown Game (".toList ++ numberText appid ++ ")".toList)
            installdir := result.or "installdir".toList []
            sizeOnDisk := parseInt (result.or "SizeOnDisk".toList "0".toList)
            lastUpdated := parseInt (result.or "LastUpdated".toList "0".toList)
            stateFlags := parseInt (result.or "StateFlags".toList "0".toList) }

/-- A directory that can be read; a file that cannot is `none`. -/
structure Directory where
  names : List Text
  read : Text → Option Text

def scanSteamLibrary (numberText : JsNumber → Text) (dir : Directory) : List DiscoveredGame :=
  let manifestFiles := dir.names.filter fun f =>
    "appmanifest_".toList.isPrefixOf f && ".acf".toList.isSuffixOf f
  manifestFiles.filterMap fun file =>
    (dir.read file).bind fun content =>
      (parseAcfFile numberText content).filter fun game => game.stateFlags = some (.finite 4)

/-- `/StateFlags\s*=\s*"[48]"/`. -/
def stateFlagsPattern : Pattern :=
  Pattern.literal "StateFlags".toList ++
    [.run false 0 isSpace, .one (· = '='), .run false 0 isSpace, .one (· = '"'),
      .one (fun c => c = '4' || c = '8'), .one (· = '"')]

/-- `/AppState\s*=\s*1/`. -/
def appStatePattern : Pattern :=
  Pattern.literal "AppState".toList ++
    [.run false 0 isSpace, .one (· = '='), .run false 0 isSpace, .one (· = '1')]

def manifestName (numberText : JsNumber → Text) (appid : JsNumber) : Text :=
  "appmanifest_".toList ++ numberText appid ++ ".acf".toList

def checkCompletedGames (numberText : JsNumber → Text) (dir : Directory) (appids : List JsNumber) :
    List JsNumber :=
  appids.filter fun appid =>
    decide (manifestName numberText appid ∈ dir.names) &&
      match dir.read (manifestName numberText appid) with
      | some content => stateFlagsPattern.test content || appStatePattern.test content
      | none => false

/-! ### Lines -/

/-- A line that gives a key a value. -/
def IsEntry (line key value : Text) : Prop :=
  ∃ space, dropReturn (trim line) = '"' :: (key ++ '"' :: (space ++ '"' :: (value ++ ['"']))) ∧
    (key ≠ [] ∧ ∀ c ∈ key, isWord c = true) ∧ (space ≠ [] ∧ ∀ c ∈ space, isSpace c = true) ∧
    value ≠ [] ∧ ∀ c ∈ value, isLineEnd c = false

theorem length_pos {text : Text} : 1 ≤ text.length ↔ text ≠ [] := by
  rw [Nat.succ_le_iff, List.length_pos_iff]

theorem matches_entry {s : Text} {caps : List Text} : entryPattern.Matches s caps [] ↔
    ∃ key space value, s = '"' :: (key ++ '"' :: (space ++ '"' :: (value ++ ['"']))) ∧
      (key ≠ [] ∧ ∀ c ∈ key, isWord c = true) ∧ (space ≠ [] ∧ ∀ c ∈ space, isSpace c = true) ∧
      (value ≠ [] ∧ ∀ c ∈ value, isLineEnd c = false) ∧ caps = [key, value] := by
  unfold entryPattern
  simp only [Pattern.matches_one, Pattern.matches_run, Pattern.matches_nil, length_pos,
    decide_eq_true_eq, Bool.not_eq_true', if_true]
  constructor
  · rintro ⟨_, _, rfl, rfl, key, _, _, rfl, hkey, hkey', ⟨_, _, rfl, rfl, space, _, _, rfl, hspace,
      hspace', ⟨_, _, rfl, rfl, value, _, _, rfl, hvalue, hvalue', ⟨_, _, rfl, rfl, rfl, rfl⟩, rfl⟩,
      rfl⟩, rfl⟩
    exact ⟨key, space, value, rfl, ⟨hkey', hkey⟩, ⟨hspace', hspace⟩, ⟨hvalue', hvalue⟩, rfl⟩
  · rintro ⟨key, space, value, rfl, ⟨hkey', hkey⟩, ⟨hspace', hspace⟩, ⟨hvalue', hvalue⟩, rfl⟩
    exact ⟨_, _, rfl, rfl, key, _, _, rfl, hkey, hkey', ⟨_, _, rfl, rfl, space, _, _, rfl, hspace,
      hspace', ⟨_, _, rfl, rfl, value, _, _, rfl, hvalue, hvalue', ⟨_, _, rfl, rfl, rfl, rfl⟩, rfl⟩,
      rfl⟩, rfl⟩

/-- The key ends at the second quotation mark, the value before the last one. -/
theorem entry_unique {key key' space space' value value' : Text} (hkey : ∀ c ∈ key, isWord c = true)
    (hkey' : ∀ c ∈ key', isWord c = true) (hspace : ∀ c ∈ space, isSpace c = true)
    (hspace' : ∀ c ∈ space', isSpace c = true)
    (h : '"' :: (key ++ '"' :: (space ++ '"' :: (value ++ ['"']))) =
      '"' :: (key' ++ '"' :: (space' ++ '"' :: (value' ++ ['"'])))) : key = key' ∧ value = value' := by
  obtain ⟨rfl, hrest⟩ := Pattern.append_cons_inj (by decide) hkey hkey' (List.cons.inj h).2
  obtain ⟨-, hlast⟩ := Pattern.append_cons_inj (by decide) hspace hspace' hrest
  exact ⟨rfl, List.append_cancel_right hlast⟩

theorem exec_entry {line key value : Text} :
    entryPattern.exec (dropReturn (trim line)) = some [key, value] ↔ IsEntry line key value := by
  rw [Pattern.exec_eq_some, matches_entry]
  · constructor
    · rintro ⟨_, space, _, hs, hkey, hspace, hvalue, ⟨⟩⟩
      exact ⟨space, hs, hkey, hspace, hvalue⟩
    · rintro ⟨space, hs, hkey, hspace, hvalue⟩
      exact ⟨key, space, value, hs, hkey, hspace, hvalue, rfl⟩
  · intro caps hcaps hcaps'
    obtain ⟨key₁, space₁, value₁, hs₁, hkey₁, hspace₁, -, heq⟩ := matches_entry.mp hcaps
    obtain ⟨key₂, space₂, value₂, hs₂, hkey₂, hspace₂, -, rfl⟩ := matches_entry.mp hcaps'
    obtain ⟨rfl, rfl⟩ := entry_unique hkey₂.2 hkey₁.2 hspace₂.2 hspace₁.2 (hs₂.symm.trans hs₁)
    exact heq.symm

theorem readLine_entry (result : Entries) {line key value : Text} (h : IsEntry line key value)
    (k : Text) : readLine result line k = if k = key then some value else result k := by
  unfold readLine
  rw [exec_entry.mpr h]

theorem readLine_other (result : Entries) {line k : Text} (h : ∀ value, ¬ IsEntry line k value) :
    readLine result line k = result k := by
  unfold readLine
  cases hexec : entryPattern.exec (dropReturn (trim line)) with
  | none => rfl
  | some caps =>
      obtain ⟨key, space, value, -, -, -, -, rfl⟩ := matches_entry.mp (Pattern.matches_of_exec hexec)
      refine if_neg ?_
      rintro rfl
      exact h value (exec_entry.mp hexec)

/-- This is the last of the lines that give the key a value. -/
def LastEntry (lines : List Text) (key value : Text) : Prop :=
  ∃ before line after, lines = before ++ line :: after ∧ IsEntry line key value ∧
    ∀ later ∈ after, ∀ value', ¬ IsEntry later key value'

theorem lastEntry_snoc {lines : List Text} {line key value : Text} : LastEntry (lines ++ [line]) key value ↔
    IsEntry line key value ∨ ((∀ value', ¬ IsEntry line key value') ∧ LastEntry lines key value) := by
  constructor
  · rintro ⟨before, line', after, heq, hentry, hlater⟩
    obtain rfl | ⟨after, last, rfl⟩ := List.eq_nil_or_concat' after
    · obtain ⟨-, rfl⟩ := List.append_inj' heq rfl |>.imp_right List.singleton_inj.mp
      exact .inl hentry
    · have hsplit : lines ++ [line] = (before ++ line' :: after) ++ [last] := by
        rw [heq, List.append_assoc, List.cons_append]
      obtain ⟨rfl, hlast⟩ := List.append_inj' hsplit rfl
      obtain rfl := List.singleton_inj.mp hlast
      refine .inr ⟨hlater line (List.mem_append_right _ List.mem_cons_self), before, line', after, rfl,
        hentry, fun later hmem => hlater later (List.mem_append_left _ hmem)⟩
  · rintro (hentry | ⟨hnone, before, line', after, rfl, hentry, hlater⟩)
    · exact ⟨lines, line, [], rfl, hentry, nofun⟩
    · refine ⟨before, line', after ++ [line], by rw [List.append_assoc, List.cons_append], hentry, ?_⟩
      intro later hmem
      obtain hmem | hmem := List.mem_append.mp hmem
      · exact hlater later hmem
      · rw [List.mem_singleton.mp hmem]
        exact hnone

theorem foldl_readLine {lines : List Text} {key value : Text} :
    lines.foldl readLine (fun _ => none) key = some value ↔ LastEntry lines key value := by
  induction lines using List.reverseRecOn with
  | nil =>
      constructor
      · intro h
        cases h
      · rintro ⟨before, line, after, heq, -⟩
        exact absurd heq.symm (List.append_ne_nil_of_right_ne_nil _ nofun)
  | append_singleton lines line ih =>
      rw [List.foldl_append, List.foldl_cons, List.foldl_nil, lastEntry_snoc]
      by_cases hentry : ∃ value', IsEntry line key value'
      · obtain ⟨value', hvalue'⟩ := hentry
        rw [readLine_entry _ hvalue', if_pos rfl, Option.some_inj]
        constructor
        · rintro rfl
          exact .inl hvalue'
        · rintro (h | ⟨hnone, -⟩)
          · have hexec := (exec_entry.mpr hvalue').symm.trans (exec_entry.mpr h)
            exact (List.cons.inj (List.cons.inj (Option.some.inj hexec)).2).1
          · exact absurd hvalue' (hnone value')
      · rw [not_exists] at hentry
        rw [readLine_other _ hentry, ih]
        constructor
        · exact fun h => .inr ⟨hentry, h⟩
        · rintro (h | ⟨-, h⟩)
          · exact absurd h (hentry value)
          · exact h

/-! ### Numbers -/

/-- The text begins with the number 4. -/
def ReadsFour (text : Text) : Prop :=
  ∃ space sign zeros rest, text = space ++ sign ++ zeros ++ '4' :: rest ∧
    (∀ c ∈ space, isSpace c = true) ∧ (sign = [] ∨ sign = ['+']) ∧ (∀ c ∈ zeros, c = '0') ∧
    ∀ c ∈ rest.head?, c.isDigit = false

theorem roundToDouble_eq_four {n : Nat} : JsNumber.roundToDouble n = 4 ↔ n = 4 := by
  constructor
  · intro h
    unfold JsNumber.roundToDouble at h
    dsimp only at h
    by_cases hsmall : n.log2 ≤ 52
    · rw [Nat.sub_eq_zero_of_le hsmall, Nat.pow_zero, Nat.div_one, Nat.mod_one] at h
      simpa using h
    · -- the quotient has 53 bits
      have hlog : 2 ^ n.log2 ≤ n := Nat.log2_self_le (by rintro rfl; exact hsmall (by decide))
      have hsplit : 2 ^ n.log2 = 2 ^ 52 * 2 ^ (n.log2 - 52) := by
        rw [← Nat.pow_add]
        congr 1
        omega
      have hunit : 1 ≤ 2 ^ (n.log2 - 52) := Nat.one_le_two_pow
      have hquotient : 2 ^ 52 ≤ n / 2 ^ (n.log2 - 52) := by
        rw [Nat.le_div_iff_mul_le hunit, ← hsplit]
        exact hlog
      have hlow : 2 ^ 52 * 1 ≤ n / 2 ^ (n.log2 - 52) * 2 ^ (n.log2 - 52) :=
        Nat.mul_le_mul hquotient hunit
      split at h
      · rw [Nat.add_mul] at h
        omega
      · omega
  · rintro rfl
    decide

theorem ofInteger_eq_four {negative : Bool} {n : Nat} :
    JsNumber.ofInteger negative n = .finite 4 ↔ negative = false ∧ n = 4 := by
  unfold JsNumber.ofInteger
  cases negative with
  | true =>
      simp only [if_true, Bool.true_eq_false, false_and, iff_false]
      split
      · intro h
        have hneg : -(JsNumber.roundToDouble n : Rat) = 4 := JsNumber.finite.inj h
        have hpos : (0 : Rat) ≤ JsNumber.roundToDouble n := Nat.cast_nonneg _
        linarith
      · nofun
  | false =>
      simp only [Bool.false_eq_true, if_false, true_and]
      rw [← roundToDouble_eq_four]
      split
      · rw [JsNumber.finite.injEq]
        exact_mod_cast Iff.rfl
      · next hlarge =>
        refine ⟨nofun, fun h => absurd ?_ hlarge⟩
        rw [h]
        exact JsNumber.lt_limit (by decide)

/-- The number that decimal digits stand for. -/
def decimalValue (digits : Text) : Nat := digits.foldl (fun n c => 10 * n + (c.toNat - '0'.toNat)) 0

theorem decimalValue_snoc (digits : Text) (c : Char) :
    decimalValue (digits ++ [c]) = 10 * decimalValue digits + (c.toNat - '0'.toNat) := by
  rw [decimalValue, List.foldl_append]
  rfl

theorem char_eq {c d : Char} (hdigit : c.isDigit = true) (hd : '0'.toNat ≤ d.toNat)
    (h : c.toNat - '0'.toNat = d.toNat - '0'.toNat) : c = d := by
  have hlow : '0'.toNat ≤ c.toNat := (Char.isDigit_iff_toNat.mp hdigit).1
  refine Char.toNat_inj.mp ?_
  omega

theorem decimalValue_eq_zero {digits : Text} (hdigits : ∀ c ∈ digits, c.isDigit = true) :
    decimalValue digits = 0 ↔ ∀ c ∈ digits, c = '0' := by
  induction digits using List.reverseRecOn with
  | nil => exact ⟨fun _ => nofun, fun _ => rfl⟩
  | append_singleton digits c ih =>
      rw [List.forall_mem_append] at hdigits
      obtain ⟨hdigits, hc⟩ := hdigits
      rw [decimalValue_snoc, List.forall_mem_append, List.forall_mem_singleton, ← ih hdigits]
      constructor
      · intro h
        exact ⟨by omega, char_eq (hc c List.mem_cons_self) (Nat.le_refl _) (by omega)⟩
      · rintro ⟨h, rfl⟩
        rw [h]
        rfl

theorem decimalValue_eq_four {digits : Text} (hdigits : ∀ c ∈ digits, c.isDigit = true) :
    decimalValue digits = 4 ↔ ∃ zeros, digits = zeros ++ ['4'] ∧ ∀ c ∈ zeros, c = '0' := by
  obtain rfl | ⟨front, c, rfl⟩ := List.eq_nil_or_concat' digits
  · refine ⟨nofun, ?_⟩
    rintro ⟨zeros, h, -⟩
    exact absurd h.symm (List.append_ne_nil_of_right_ne_nil _ nofun)
  · rw [List.forall_mem_append] at hdigits
    obtain ⟨hfront, hc⟩ := hdigits
    have hdigit := hc c List.mem_cons_self
    rw [decimalValue_snoc]
    constructor
    · intro h
      have hzero : decimalValue front = 0 := by omega
      rw [hzero] at h
      obtain rfl : c = '4' := char_eq hdigit (by decide) (by simpa using h)
      exact ⟨front, rfl, (decimalValue_eq_zero hfront).mp hzero⟩
    · rintro ⟨zeros, h, hzeros⟩
      obtain ⟨rfl, hlast⟩ := List.append_inj' h rfl
      obtain rfl := List.singleton_inj.mp hlast
      rw [(decimalValue_eq_zero hfront).mpr hzeros]
      decide

/-- With the sign taken off. -/
theorem parseInt_digits {negative : Bool} {text : Text} :
    (match text.takeWhile Char.isDigit with
      | [] => none
      | digits => some (JsNumber.ofInteger negative (decimalValue digits))) = some (.finite 4) ↔
      negative = false ∧ ∃ zeros rest, text = zeros ++ '4' :: rest ∧ (∀ c ∈ zeros, c = '0') ∧
        ∀ c ∈ rest.head?, c.isDigit = false := by
  obtain ⟨rest, htext, hdigits, hrest⟩ := Pattern.takeWhile_eq_iff.mp (rfl : text.takeWhile Char.isDigit = _)
  have hvalue : (match text.takeWhile Char.isDigit with
      | [] => none
      | digits => some (JsNumber.ofInteger negative (decimalValue digits))) = some (.finite 4) ↔
      negative = false ∧ decimalValue (text.takeWhile Char.isDigit) = 4 := by
    split
    · next hnil =>
      rw [hnil]
      exact ⟨nofun, fun h => absurd h.2 (by decide)⟩
    · rw [Option.some_inj]
      exact ofInteger_eq_four
  rw [hvalue, decimalValue_eq_four hdigits]
  refine and_congr_right fun _ => ?_
  constructor
  · rintro ⟨zeros, htake, hzeros⟩
    refine ⟨zeros, rest, ?_, hzeros, hrest⟩
    rw [htext, htake, List.append_assoc, List.singleton_append]
  · rintro ⟨zeros, rest', rfl, hzeros, hrest'⟩
    refine ⟨zeros, Pattern.takeWhile_eq_iff.mpr ⟨rest', ?_, ?_, hrest'⟩, hzeros⟩
    · rw [List.append_assoc, List.singleton_append]
    · rw [List.forall_mem_append, List.forall_mem_singleton]
      exact ⟨fun c hc => by rw [hzeros c hc]; decide, by decide⟩

theorem parseInt_signed {text : Text} : JsNumber.parseInt text = some (.finite 4) ↔
    ∃ sign zeros rest, text = sign ++ zeros ++ '4' :: rest ∧ (sign = [] ∨ sign = ['+']) ∧
      (∀ c ∈ zeros, c = '0') ∧ ∀ c ∈ rest.head?, c.isDigit = false := by
  -- what follows the sign does not begin with one
  have hfirst {c : Char} {s zeros rest : Text} (h : c :: s = zeros ++ '4' :: rest)
      (hzeros : ∀ c ∈ zeros, c = '0') : c = '0' ∨ c = '4' := by
    cases zeros with
    | nil => exact .inr (List.cons.inj h).1
    | cons d zeros => exact .inl ((List.cons.inj h).1.trans (hzeros d List.mem_cons_self))
  unfold JsNumber.parseInt
  split
  · next s =>
    refine parseInt_digits.trans ⟨nofun, ?_⟩
    rintro ⟨sign, zeros, rest, htext, rfl | rfl, hzeros, -⟩
    · obtain h | h := hfirst htext hzeros <;> cases h
    · cases htext
  · next s =>
    refine parseInt_digits.trans ⟨?_, ?_⟩
    · rintro ⟨-, zeros, rest, rfl, hzeros, hrest⟩
      exact ⟨['+'], zeros, rest, rfl, .inr rfl, hzeros, hrest⟩
    · rintro ⟨sign, zeros, rest, htext, rfl | rfl, hzeros, hrest⟩
      · obtain h | h := hfirst htext hzeros <;> cases h
      · exact ⟨rfl, zeros, rest, (List.cons.inj htext).2, hzeros, hrest⟩
  · next s hminus hplus =>
    refine parseInt_digits.trans ⟨?_, ?_⟩
    · rintro ⟨-, zeros, rest, rfl, hzeros, hrest⟩
      exact ⟨[], zeros, rest, rfl, .inl rfl, hzeros, hrest⟩
    · rintro ⟨sign, zeros, rest, htext, rfl | rfl, hzeros, hrest⟩
      · exact ⟨rfl, zeros, rest, htext, hzeros, hrest⟩
      · exact absurd htext (hplus _)

theorem parseInt_eq_four {text : Text} : parseInt text = some (.finite 4) ↔ ReadsFour text := by
  unfold parseInt
  rw [parseInt_signed]
  constructor
  · rintro ⟨sign, zeros, rest, htext, hsign, hzeros, hrest⟩
    refine ⟨text.takeWhile isSpace, sign, zeros, rest, ?_, ?_, hsign, hzeros, hrest⟩
    · rw [List.append_assoc, List.append_assoc, ← List.append_assoc sign, ← htext,
        List.takeWhile_append_dropWhile]
    · exact List.all_eq_true.mp List.all_takeWhile
  · rintro ⟨space, sign, zeros, rest, rfl, hspace, hsign, hzeros, hrest⟩
    refine ⟨sign, zeros, rest, ?_, hsign, hzeros, hrest⟩
    rw [List.append_assoc, List.append_assoc, List.dropWhile_append_of_pos hspace, List.append_assoc]
    obtain rfl | rfl := hsign
    · cases zeros with
      | nil => exact List.dropWhile_cons_of_neg (by decide)
      | cons c zeros =>
          rw [hzeros c List.mem_cons_self]
          exact List.dropWhile_cons_of_neg (by decide)
    · exact List.dropWhile_cons_of_neg (by decide)

/-! ### The two readers -/

/-- The text says in one of two ways that a state is set. -/
def Assigned (content : Text) : Prop :=
  ∃ before space space' rest, (∀ c ∈ space, isSpace c = true) ∧ (∀ c ∈ space', isSpace c = true) ∧
    ((∃ flag, (flag = '4' ∨ flag = '8') ∧ content =
        before ++ "StateFlags".toList ++ space ++ '=' :: (space' ++ '"' :: flag :: '"' :: rest)) ∨
      content = before ++ "AppState".toList ++ space ++ '=' :: (space' ++ '1' :: rest))

/-- The last line that gives `StateFlags` a value gives it the value 4. -/
def Flagged (content : Text) : Prop :=
  ∃ value, LastEntry (content.splitOn '\n') "StateFlags".toList value ∧ ReadsFour value

theorem completed_iff {content : Text} :
    (stateFlagsPattern.test content || appStatePattern.test content) = true ↔ Assigned content := by
  rw [Bool.or_eq_true, Pattern.test_iff, Pattern.test_iff]
  unfold stateFlagsPattern appStatePattern
  simp only [Pattern.matches_literal, Pattern.matches_one, Pattern.matches_run, Pattern.matches_nil,
    decide_eq_true_eq, Nat.zero_le, true_and, Bool.false_eq_true, if_false, Bool.or_eq_true]
  constructor
  · rintro (⟨before, _, _, rest, rfl, _, rfl, space, _, _, rfl, hspace, ⟨_, _, rfl, rfl, space', _, _,
      rfl, hspace', ⟨_, _, rfl, rfl, flag, _, rfl, hflag, _, _, rfl, rfl, -, rfl⟩, rfl⟩, rfl⟩ |
      ⟨before, _, _, rest, rfl, _, rfl, space, _, _, rfl, hspace, ⟨_, _, rfl, rfl, space', _, _,
      rfl, hspace', ⟨_, _, rfl, rfl, -, rfl⟩, rfl⟩, rfl⟩)
    · refine ⟨before, space, space', rest, hspace, hspace', .inl ⟨flag, hflag, ?_⟩⟩
      simp only [List.append_assoc]
    · refine ⟨before, space, space', rest, hspace, hspace', .inr ?_⟩
      simp only [List.append_assoc]
  · rintro ⟨before, space, space', rest, hspace, hspace', ⟨flag, hflag, rfl⟩ | rfl⟩
    · refine .inl ⟨before, _, [], rest, by simp only [List.append_assoc], _, rfl, space, _, _, rfl, hspace,
        ⟨_, _, rfl, rfl, space', _, _, rfl, hspace', ⟨_, _, rfl, rfl, flag, _, rfl, hflag, _, _, rfl, rfl,
          rfl, rfl⟩, rfl⟩, rfl⟩
    · refine .inr ⟨before, _, [], rest, by simp only [List.append_assoc], _, rfl, space, _, _, rfl, hspace,
        ⟨_, _, rfl, rfl, space', _, _, rfl, hspace', ⟨_, _, rfl, rfl, rfl, rfl⟩, rfl⟩, rfl⟩

theorem stateFlags_iff {numberText : JsNumber → Text} {content : Text} {game : DiscoveredGame}
    (h : parseAcfFile numberText content = some game) :
    game.stateFlags = some (.finite 4) ↔ Flagged content := by
  have hflags : game.stateFlags = parseInt ((readLines content).or "StateFlags".toList "0".toList) := by
    unfold parseAcfFile at h
    dsimp only at h
    split at h
    · cases h
    · split at h
      · cases h
      · rw [← Option.some.inj h]
  rw [hflags, parseInt_eq_four, Flagged]
  cases hvalue : readLines content "StateFlags".toList with
  | none =>
      have hor : (readLines content).or "StateFlags".toList "0".toList = "0".toList := by
        rw [Entries.or, hvalue]
      rw [hor]
      constructor
      · rintro ⟨space, sign, zeros, rest, htext, -⟩
        have hmem : '4' ∈ "0".toList := by
          rw [htext]
          exact List.mem_append_right _ List.mem_cons_self
        exact absurd hmem (by decide)
      · rintro ⟨value, hlast, -⟩
        cases hvalue.symm.trans (foldl_readLine.mpr hlast)
  | some value =>
      have hlast := foldl_readLine.mp hvalue
      have hsome : value ≠ [] := by
        obtain ⟨_, _, _, -, ⟨_, _, _, _, hne, -⟩, -⟩ := hlast
        exact hne
      have hor : (readLines content).or "StateFlags".toList "0".toList = value := by
        rw [Entries.or, hvalue]
        exact if_neg hsome
      rw [hor]
      constructor
      · exact fun hfour => ⟨value, hlast, hfour⟩
      · rintro ⟨value', hlast', hfour⟩
        obtain rfl := Option.some.inj (hvalue.symm.trans (foldl_readLine.mpr hlast'))
        exact hfour

theorem isPrefixOf_isSuffixOf (front middle back : Text) :
    (front.isPrefixOf (front ++ middle ++ back) && back.isSuffixOf (front ++ middle ++ back)) = true := by
  rw [Bool.and_eq_true, List.isPrefixOf_iff_prefix, List.isSuffixOf_iff_suffix]
  refine ⟨?_, List.suffix_append _ _⟩
  rw [List.append_assoc]
  exact List.prefix_append _ _

/-- Whatever the manifest of a game contains, and whatever else is in the directory. -/
theorem readers_agree_iff (numberText : JsNumber → Text) (dir : Directory) (content : Text)
    (game : DiscoveredGame) (hname : manifestName numberText game.appid ∈ dir.names)
    (hread : dir.read (manifestName numberText game.appid) = some content)
    (hparse : parseAcfFile numberText content = some game) :
    (game.appid ∈ checkCompletedGames numberText dir [game.appid] ↔
      game ∈ scanSteamLibrary numberText dir) ↔ (Assigned content ↔ Flagged content) := by
  have hcompleted : game.appid ∈ checkCompletedGames numberText dir [game.appid] ↔ Assigned content := by
    unfold checkCompletedGames
    rw [List.mem_filter, hread, decide_eq_true hname, Bool.true_and, completed_iff]
    exact and_iff_right List.mem_cons_self
  have hlisted : game ∈ scanSteamLibrary numberText dir ↔ Flagged content := by
    unfold scanSteamLibrary
    rw [← stateFlags_iff hparse, List.mem_filterMap]
    constructor
    · rintro ⟨file, -, hfile⟩
      obtain ⟨_, -, hgame⟩ := Option.bind_eq_some_iff.mp hfile
      exact of_decide_eq_true (Option.filter_eq_some_iff.mp hgame).2
    · intro hflags
      refine ⟨manifestName numberText game.appid,
        List.mem_filter.mpr ⟨hname, isPrefixOf_isSuffixOf _ _ _⟩, ?_⟩
      rw [hread, Option.bind_some, hparse]
      exact Option.filter_eq_some_iff.mpr ⟨rfl, decide_eq_true hflags⟩
  rw [hcompleted, hlisted]

/-- The text of an integer that is not too large. -/
def integerText : JsNumber → Text
  | .finite value => (toString value.num).toList
  | .infinite negative => if negative then "-Infinity".toList else "Infinity".toList

/-- A manifest as Steam writes it. -/
def installed : Text :=
  "[AppState]\n\"appid\" \"730\"\n\"Name\" \"Counter-Strike 2\"\n\"installdir\" \"csgo\"\n\"StateFlags\" \"4\"".toList

def library : Directory where
  names := ["appmanifest_730.acf".toList]
  read name := if name = "appmanifest_730.acf".toList then some installed else none

def counterStrike : DiscoveredGame where
  appid := .finite 730
  name := "Counter-Strike 2".toList
  installdir := "csgo".toList
  sizeOnDisk := some (.finite 0)
  lastUpdated := some (.finite 0)
  stateFlags := some (.finite 4)

/-- Its characters; a text is slow to take apart. -/
theorem installed_eq : installed =
    ['[', 'A', 'p', 'p', 'S', 't', 'a', 't', 'e', ']', '\n',
      '"', 'a', 'p', 'p', 'i', 'd', '"', ' ', '"', '7', '3', '0', '"', '\n',
      '"', 'N', 'a', 'm', 'e', '"', ' ',
      '"', 'C', 'o', 'u', 'n', 't', 'e', 'r', '-', 'S', 't', 'r', 'i', 'k', 'e', ' ', '2', '"', '\n',
      '"', 'i', 'n', 's', 't', 'a', 'l', 'l', 'd', 'i', 'r', '"', ' ', '"', 'c', 's', 'g', 'o', '"', '\n',
      '"', 'S', 't', 'a', 't', 'e', 'F', 'l', 'a', 'g', 's', '"', ' ', '"', '4', '"'] :=
  String.toList_ofList

theorem parse_installed : parseAcfFile integerText installed = some counterStrike := by
  rw [installed_eq]
  decide +kernel

theorem manifestName_counterStrike :
    manifestName integerText counterStrike.appid = "appmanifest_730.acf".toList := by
  decide

theorem name_mem_library : manifestName integerText counterStrike.appid ∈ library.names :=
  List.mem_singleton.mpr manifestName_counterStrike

theorem read_library : library.read (manifestName integerText counterStrike.appid) = some installed := by
  change (if manifestName integerText counterStrike.appid = "appmanifest_730.acf".toList then some installed
    else none) = some installed
  rw [if_pos manifestName_counterStrike]

theorem readers_agree_iff_installed : parseAcfFile integerText installed = some counterStrike ∧
    ((counterStrike.appid ∈ checkCompletedGames integerText library [counterStrike.appid] ↔
      counterStrike ∈ scanSteamLibrary integerText library) ↔
      (Assigned installed ↔ Flagged installed)) :=
  ⟨parse_installed, readers_agree_iff _ _ _ _ name_mem_library read_library parse_installed⟩

theorem readers_disagree : parseAcfFile integerText installed = some counterStrike ∧
    counterStrike ∈ scanSteamLibrary integerText library ∧
    counterStrike.appid ∉ checkCompletedGames integerText library [counterStrike.appid] := by
  refine ⟨parse_installed, ?_, ?_⟩
  · unfold scanSteamLibrary
    refine List.mem_filterMap.mpr ⟨manifestName integerText counterStrike.appid, ?_, ?_⟩
    · refine List.mem_filter.mpr ⟨name_mem_library, ?_⟩
      rw [manifestName_counterStrike]
      decide
    · rw [read_library, Option.bind_some, parse_installed]
      decide
  · have htest : (stateFlagsPattern.test installed || appStatePattern.test installed) = false := by
      rw [installed_eq]
      decide
    unfold checkCompletedGames
    rw [List.mem_filter, read_library]
    dsimp only
    rw [htest, Bool.and_false]
    exact fun h => Bool.false_ne_true h.2

end Stratus.Backend.Manifest
