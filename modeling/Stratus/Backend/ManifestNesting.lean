import Stratus.Backend.InstalledGames

/-! The nested sections of a manifest against the lines that `parseAcfFile` of `steamScanner.ts` reads
one by one. -/
namespace Stratus.Backend.Manifest

open Stratus.Lib

/-! ### Sections -/

/-- What stands between two quotation marks. -/
abbrev Plain := {text : Text // '"' ∉ text ∧ '\n' ∉ text}

/-- The items of a section, in their order. -/
inductive Section where
  | nil
  | pair (key value : Plain) (rest : Section)
  | sub (name : Plain) (items rest : Section)

namespace Section

/-- The pairs at all depths. -/
def pairs : Section → List (Text × Text)
  | nil => []
  | pair key value rest => (key, value) :: rest.pairs
  | sub _ items rest => items.pairs ++ rest.pairs

/-- The pairs that are in no section within this one. -/
def ownPairs : Section → List (Text × Text)
  | nil => []
  | pair key value rest => (key, value) :: rest.ownPairs
  | sub _ _ rest => rest.ownPairs

end Section

def quoted (text : Text) : Text := '"' :: (text ++ ['"'])

def pairText (key space value : Text) : Text := quoted key ++ (space ++ quoted value)

def Blank (text : Text) : Prop := ∀ c ∈ text, isSpace c = true

/-- Blanks may stand around it on its line. -/
def Padded (line core : Text) : Prop := ∃ indent trail, line = indent ++ core ++ trail ∧ Blank indent ∧ Blank trail

/-- The lines of a section in the KeyValues layout. -/
inductive Laid : Section → List Text → Prop where
  | nil : Laid .nil []
  | blank {items line lines} : Blank line → Laid items lines → Laid items (line :: lines)
  | pair {key value : Plain} {space rest line lines} : space ≠ [] → Blank space →
      Padded line (pairText key space value) → Laid rest lines → Laid (.pair key value rest) (line :: lines)
  | sub {name : Plain} {items rest header opening closing inner lines} : Padded header (quoted name) →
      Padded opening ['\x7b'] → Laid items inner → Padded closing ['\x7d'] → Laid rest lines →
      Laid (.sub name items rest) (header :: opening :: (inner ++ closing :: lines))

def appState : Plain := ⟨"AppState".toList, by decide⟩

/-- The text is a manifest with these items. -/
def IsManifest (items : Section) (content : Text) : Prop :=
  Laid (.sub appState items .nil) (content.splitOn '\n')

/-! ### What a manifest says -/

def record (entries : Entries) (pair : Text × Text) : Entries :=
  fun k => if k = pair.1 then some pair.2 else entries k

/-- What the pairs give each key; the last one counts. -/
def entriesOf (pairs : List (Text × Text)) : Entries := pairs.foldl record fun _ => none

/-- What the section itself says. -/
def Section.given (items : Section) : Entries := entriesOf items.ownPairs

/-- `decimalValue`, of digits only. -/
def unsignedInteger (digits : Text) : Option Nat :=
  if digits ≠ [] ∧ digits.all Char.isDigit = true then some (decimalValue digits) else none

/-- The integer with this text. -/
def decimalInteger (text : Text) : Option Int :=
  match text with
  | '-' :: digits => (unsignedInteger digits).map fun n : Nat => -(n : Int)
  | '+' :: digits => (unsignedInteger digits).map fun n : Nat => (n : Int)
  | digits => (unsignedInteger digits).map fun n : Nat => (n : Int)

def integerNumber (n : Int) : JsNumber := JsNumber.ofInteger (decide (n < 0)) n.natAbs

/-- The appid of a section, if it is an integer other than 0. -/
def Section.appid (items : Section) : Option JsNumber :=
  (((items.given "appid".toList).bind decimalInteger).filter (· ≠ 0)).map integerNumber

def describe (numberText : JsNumber → Text) (entries : Entries) (appid : JsNumber) : DiscoveredGame where
  appid := appid
  name := entries.or "Name".toList ("Unknown Game (".toList ++ numberText appid ++ ")".toList)
  installdir := entries.or "installdir".toList []
  sizeOnDisk := parseInt (entries.or "SizeOnDisk".toList "0".toList)
  lastUpdated := parseInt (entries.or "LastUpdated".toList "0".toList)
  stateFlags := parseInt (entries.or "StateFlags".toList "0".toList)

/-- The game of a manifest with these items. -/
def Section.game (numberText : JsNumber → Text) (items : Section) : Option DiscoveredGame :=
  items.appid.map (describe numberText items.given)

/-! ### Lines of a manifest -/

/-- The line of this pair is an entry. -/
def Readable (pair : Text × Text) : Prop :=
  (pair.1 ≠ [] ∧ ∀ c ∈ pair.1, isWord c = true) ∧ pair.2 ≠ [] ∧ ∀ c ∈ pair.2, isLineEnd c = false

instance (pair : Text × Text) : Decidable (Readable pair) :=
  decidable_of_iff ((pair.1 ≠ [] ∧ pair.1.all isWord = true) ∧
      pair.2 ≠ [] ∧ (pair.2.all fun c => !isLineEnd c) = true) <| by
    simp only [Readable, List.all_eq_true, Bool.not_eq_true']

/-- What the readable pairs say, at whatever depth. -/
def Section.found (items : Section) : Entries := entriesOf (items.pairs.filter fun pair => Readable pair)

theorem dropWhile_blank {space text : Text} (hspace : Blank space)
    (htext : ∀ c ∈ text.head?, isSpace c = false) : (space ++ text).dropWhile isSpace = text := by
  rw [List.dropWhile_append_of_pos hspace]
  cases text with
  | nil => rfl
  | cons c text =>
      refine List.dropWhile_cons_of_neg ?_
      rw [htext c rfl]
      exact Bool.false_ne_true

theorem trim_padded {line core : Text} (h : Padded line core) (hhead : ∀ c ∈ core.head?, isSpace c = false)
    (hlast : ∀ c ∈ core.getLast?, isSpace c = false) : trim line = core := by
  obtain ⟨indent, trail, rfl, hindent, htrail⟩ := h
  unfold trim
  cases core with
  | nil =>
      have hall : Blank (indent ++ trail) := List.forall_mem_append.mpr ⟨hindent, htrail⟩
      have hdrop := dropWhile_blank hall (fun _ => nofun : ∀ c ∈ ([] : Text).head?, isSpace c = false)
      rw [List.append_nil] at hdrop
      rw [List.append_nil, hdrop]
      rfl
  | cons c core =>
      rw [List.append_assoc, dropWhile_blank hindent, List.reverse_append, dropWhile_blank]
      · exact List.reverse_reverse _
      · intro d hd
        exact htrail d (List.mem_reverse.mp hd)
      · rw [List.head?_reverse]
        exact hlast
      · exact hhead

theorem Blank.padded {line : Text} (h : Blank line) : Padded line [] :=
  ⟨line, [], by rw [List.append_nil, List.append_nil], h, nofun⟩

theorem dropReturn_eq {text : Text} (h : ∀ c ∈ text.getLast?, isSpace c = false) : dropReturn text = text := by
  refine if_neg ?_
  intro hreturn
  exact absurd (h '\r' hreturn) (by decide)

theorem getLast?_quoted (front text : Text) : (front ++ quoted text).getLast? = some '"' := by
  unfold quoted
  rw [← List.cons_append, ← List.append_assoc, List.getLast?_concat]

theorem not_isSpace {c d : Char} (hd : isSpace d = false) (h : some d = some c) : isSpace c = false := by
  rwa [← Option.some.inj h]

/-- Nothing that is read counts on a line without an entry. -/
theorem readLine_none (result : Entries) {line core : Text} (h : Padded line core)
    (hhead : ∀ c ∈ core.head?, isSpace c = false) (hlast : ∀ c ∈ core.getLast?, isSpace c = false)
    (hcore : ∀ key space value, core ≠ pairText key space value) : readLine result line = result := by
  funext k
  refine readLine_other result fun value => ?_
  rintro ⟨space, heq, -⟩
  rw [trim_padded h hhead hlast, dropReturn_eq hlast] at heq
  refine hcore k space value (heq.trans ?_)
  simp only [pairText, quoted, List.cons_append, List.append_assoc, List.nil_append]

/-- A text without a quotation mark ends at the next one. -/
theorem quote_inj {xs ys s t : Text} (hxs : '"' ∉ xs) (hys : '"' ∉ ys) (h : xs ++ '"' :: s = ys ++ '"' :: t) :
    xs = ys ∧ s = t := by
  refine Pattern.append_cons_inj (p := fun c => c ≠ '"') (d := '"') (by decide) ?_ ?_ h
  · intro c hc
    exact decide_eq_true fun heq => hxs (heq ▸ hc)
  · intro c hc
    exact decide_eq_true fun heq => hys (heq ▸ hc)

theorem pairText_inj {key key' space space' value value' : Text} (hkey : '"' ∉ key) (hkey' : '"' ∉ key')
    (hspace : Blank space) (hspace' : Blank space')
    (h : pairText key space value = pairText key' space' value') : key = key' ∧ value = value' := by
  have hquote {text : Text} (htext : Blank text) : '"' ∉ text := by
    intro hmem
    exact absurd (htext _ hmem) (by decide)
  unfold pairText quoted at h
  simp only [List.cons_append, List.append_assoc, List.nil_append] at h
  obtain ⟨rfl, hrest⟩ := quote_inj hkey hkey' (List.cons.inj h).2
  obtain ⟨-, hlast⟩ := quote_inj (hquote hspace) (hquote hspace') hrest
  exact ⟨rfl, List.append_cancel_right hlast⟩

theorem readLine_pair (result : Entries) {key value : Plain} {space line : Text} (hspace : space ≠ [])
    (hblank : Blank space) (h : Padded line (pairText key space value)) : readLine result line =
      if Readable (key, value) then record result (key, value) else result := by
  have hcore : dropReturn (trim line) = pairText key space value := by
    have hlast : ∀ c ∈ (pairText key space value).getLast?, isSpace c = false := by
      rw [pairText, ← List.append_assoc, getLast?_quoted]
      exact fun c => not_isSpace (by decide)
    rw [trim_padded h (fun c => not_isSpace (by decide)) hlast, dropReturn_eq hlast]
  have hentry {key' space' value' : Text} : pairText key' space' value' =
      '"' :: (key' ++ '"' :: (space' ++ '"' :: (value' ++ ['"']))) := by
    simp only [pairText, quoted, List.cons_append, List.append_assoc, List.nil_append]
  funext k
  split
  · next hreadable =>
    exact readLine_entry result ⟨space, hcore.trans hentry, hreadable.1, ⟨hspace, hblank⟩, hreadable.2⟩ k
  · next hunreadable =>
    refine readLine_other result fun value' => ?_
    rintro ⟨space', heq, hkey', ⟨-, hblank'⟩, hvalue'⟩
    have hquote : '"' ∉ k := by
      intro hmem
      exact absurd (hkey'.2 _ hmem) (by decide)
    obtain ⟨hk, hv⟩ := pairText_inj key.2.1 hquote hblank hblank' (hcore.symm.trans (heq.trans hentry.symm))
    subst hk hv
    exact hunreadable ⟨hkey', hvalue'⟩

/-- A name, a brace or nothing. -/
theorem readLine_structure (result : Entries) {line core : Text} (h : Padded line core)
    (hcore : core = [] ∨ core = ['\x7b'] ∨ core = ['\x7d'] ∨ ∃ name : Plain, core = quoted name) :
    readLine result line = result := by
  obtain rfl | rfl | rfl | ⟨name, rfl⟩ := hcore
  · exact readLine_none result h nofun nofun fun _ _ _ => nofun
  · refine readLine_none result h (fun c => not_isSpace rfl) (fun c => not_isSpace rfl) fun key space value heq => ?_
    exact absurd (List.cons.inj heq).1 (by decide)
  · refine readLine_none result h (fun c => not_isSpace rfl) (fun c => not_isSpace rfl) fun key space value heq => ?_
    exact absurd (List.cons.inj heq).1 (by decide)
  · refine readLine_none result h (fun c => not_isSpace (by decide)) ?_ fun key space value heq => ?_
    · rw [← List.nil_append (quoted _), getLast?_quoted]
      exact fun c => not_isSpace (by decide)
    · -- three quotation marks are more than two
      have hcount := congrArg (List.count '"') heq
      have hname := List.count_eq_zero.mpr name.2.1
      simp only [pairText, quoted, List.count_cons_self, List.count_append, List.count_nil] at hcount
      omega

/-- The lines say what the readable pairs say, in which section they are. -/
theorem foldl_laid {items : Section} {lines : List Text} (h : Laid items lines) (result : Entries) :
    lines.foldl readLine result = (items.pairs.filter fun pair => Readable pair).foldl record result := by
  induction h generalizing result with
  | nil => rfl
  | blank hline _ ih => rw [List.foldl_cons, readLine_structure result hline.padded (.inl rfl), ih]
  | pair hspace hblank hline _ ih =>
      rw [List.foldl_cons, readLine_pair result hspace hblank hline, ih, Section.pairs, List.filter_cons]
      simp only [decide_eq_true_eq]
      split <;> rfl
  | sub hname hopening _ hclosing _ ihitems ihrest =>
      rw [List.foldl_cons, readLine_structure result hname (.inr (.inr (.inr ⟨_, rfl⟩))), List.foldl_cons,
        readLine_structure result hopening (.inr (.inl rfl)), List.foldl_append, ihitems, List.foldl_cons,
        readLine_structure _ hclosing (.inr (.inr (.inl rfl))), ihrest, Section.pairs, List.filter_append,
        List.foldl_append]

theorem readLines_manifest {items : Section} {content : Text} (h : IsManifest items content) :
    readLines content = items.found := by
  unfold readLines Section.found entriesOf
  rw [foldl_laid h, Section.pairs, Section.pairs, List.append_nil]

/-! ### Nesting -/

/-- The appid that `parseAcfFile` takes, unless it returns `null`. -/
def appidRead (entries : Entries) : Option JsNumber :=
  (parseInt (entries.or "appid".toList "0".toList)).filter (· ≠ .finite 0)

theorem parseAcfFile_eq (numberText : JsNumber → Text) (content : Text) : parseAcfFile numberText content =
    (appidRead (readLines content)).map (describe numberText (readLines content)) := by
  unfold parseAcfFile appidRead
  dsimp only
  cases parseInt ((readLines content).or "appid".toList "0".toList) with
  | none => rfl
  | some appid =>
      rw [Option.filter_some]
      dsimp only
      by_cases hzero : appid = .finite 0
      · rw [if_pos hzero, if_neg (by simpa using hzero)]
        rfl
      · rw [if_neg hzero, if_pos (by simpa using hzero)]
        rfl

/-- For each key that counts, the last readable pair of the file reads as the section itself does. -/
structure Agrees (numberText : JsNumber → Text) (items : Section) : Prop where
  appid : appidRead items.found = items.appid
  name : ∀ appid, items.appid = some appid →
    items.found.or "Name".toList ("Unknown Game (".toList ++ numberText appid ++ ")".toList) =
      items.given.or "Name".toList ("Unknown Game (".toList ++ numberText appid ++ ")".toList)
  installdir : items.appid ≠ none → items.found.or "installdir".toList [] = items.given.or "installdir".toList []
  numbers : items.appid ≠ none → ∀ key ∈ ["SizeOnDisk".toList, "LastUpdated".toList, "StateFlags".toList],
    parseInt (items.found.or key "0".toList) = parseInt (items.given.or key "0".toList)

/-- For every layout of every section. -/
theorem parseAcfFile_iff (numberText : JsNumber → Text) (items : Section) (content : Text)
    (h : IsManifest items content) :
    parseAcfFile numberText content = items.game numberText ↔ Agrees numberText items := by
  rw [parseAcfFile_eq, readLines_manifest h, Section.game]
  constructor
  · intro heq
    have happid : appidRead items.found = items.appid := by
      have hfirst := congrArg (Option.map DiscoveredGame.appid) heq
      rw [Option.map_map, Option.map_map] at hfirst
      exact Option.map_id'.symm.trans (hfirst.trans Option.map_id')
    have hsame {appid : JsNumber} (hsome : items.appid = some appid) :
        describe numberText items.found appid = describe numberText items.given appid := by
      rw [happid, hsome] at heq
      exact Option.some.inj heq
    refine ⟨happid, fun appid hsome => congrArg DiscoveredGame.name (hsame hsome), ?_, ?_⟩
    · intro hne
      obtain ⟨appid, hsome⟩ := Option.ne_none_iff_exists'.mp hne
      exact congrArg DiscoveredGame.installdir (hsame hsome)
    · intro hne key hkey
      obtain ⟨appid, hsome⟩ := Option.ne_none_iff_exists'.mp hne
      simp only [List.mem_cons, List.not_mem_nil, or_false] at hkey
      obtain rfl | rfl | rfl := hkey
      · exact congrArg DiscoveredGame.sizeOnDisk (hsame hsome)
      · exact congrArg DiscoveredGame.lastUpdated (hsame hsome)
      · exact congrArg DiscoveredGame.stateFlags (hsame hsome)
  · rintro ⟨happid, hname, hinstalldir, hnumbers⟩
    rw [happid]
    cases hsome : items.appid with
    | none => rfl
    | some appid =>
        have hne : items.appid ≠ none := by
          rw [hsome]
          nofun
        rw [Option.map_some, Option.map_some, describe, describe, hname appid hsome, hinstalldir hne,
          hnumbers hne _ List.mem_cons_self, hnumbers hne _ (List.mem_cons_of_mem _ List.mem_cons_self),
          hnumbers hne _ (List.mem_cons_of_mem _ (List.mem_cons_of_mem _ List.mem_cons_self))]

/-! ### Integers -/

theorem roundToDouble_eq_zero {n : Nat} : JsNumber.roundToDouble n = 0 ↔ n = 0 := by
  constructor
  · intro h
    by_contra hne
    have hunit : 1 ≤ 2 ^ (n.log2 - 52) := Nat.one_le_two_pow
    have hle : 2 ^ (n.log2 - 52) ≤ n :=
      (Nat.pow_le_pow_right (by decide) (Nat.sub_le _ _)).trans (Nat.log2_self_le hne)
    have hquotient : 1 ≤ n / 2 ^ (n.log2 - 52) := (Nat.le_div_iff_mul_le hunit).mpr (by rwa [Nat.one_mul])
    unfold JsNumber.roundToDouble at h
    dsimp only at h
    split at h
    · obtain h | h := Nat.mul_eq_zero.mp h <;> omega
    · obtain h | h := Nat.mul_eq_zero.mp h <;> omega
  · rintro rfl
    rfl

theorem ofInteger_eq_zero {negative : Bool} {n : Nat} : JsNumber.ofInteger negative n = .finite 0 ↔ n = 0 := by
  constructor
  · intro h
    unfold JsNumber.ofInteger at h
    dsimp only at h
    split at h
    · have hzero := JsNumber.finite.inj h
      rw [← roundToDouble_eq_zero]
      cases negative with
      | true =>
          rw [if_pos rfl] at hzero
          exact_mod_cast neg_eq_zero.mp hzero
      | false =>
          rw [if_neg Bool.false_ne_true] at hzero
          exact_mod_cast hzero
    · cases h
  · rintro rfl
    have hsmall : JsNumber.roundToDouble 0 < 2 ^ 1024 := JsNumber.lt_limit (by decide)
    unfold JsNumber.ofInteger
    rw [if_pos hsmall]
    cases negative <;> decide

theorem integerNumber_eq_zero {n : Int} : integerNumber n = .finite 0 ↔ n = 0 :=
  ofInteger_eq_zero.trans Int.natAbs_eq_zero

theorem unsignedInteger_eq_some {digits : Text} {n : Nat} : unsignedInteger digits = some n ↔
    (digits ≠ [] ∧ ∀ c ∈ digits, c.isDigit = true) ∧ decimalValue digits = n := by
  unfold unsignedInteger
  rw [← List.all_eq_true]
  split
  · next hdigits => exact ⟨fun h => ⟨hdigits, Option.some.inj h⟩, fun h => congrArg some h.2⟩
  · next hdigits => exact ⟨nofun, fun h => absurd h.1 hdigits⟩

/-- With the sign taken off. -/
theorem takeWhile_unsigned {negative : Bool} {digits : Text} {n : Nat} (h : unsignedInteger digits = some n) :
    (match digits.takeWhile Char.isDigit with
      | [] => none
      | digits => some (JsNumber.ofInteger negative (decimalValue digits))) =
      some (JsNumber.ofInteger negative n) := by
  obtain ⟨⟨hne, hdigits⟩, rfl⟩ := unsignedInteger_eq_some.mp h
  rw [Pattern.takeWhile_eq_iff.mpr ⟨[], (List.append_nil _).symm, hdigits, nofun⟩]
  cases digits with
  | nil => exact absurd rfl hne
  | cons c digits => rfl

theorem not_isSpace_digit {c : Char} (h : c.isDigit = true) : isSpace c = false := by
  obtain ⟨hlow, hhigh⟩ : 48 ≤ c.toNat ∧ c.toNat ≤ 57 := Char.isDigit_iff_toNat.mp h
  unfold isSpace
  simp only [Bool.or_eq_false_iff, Bool.and_eq_false_iff, decide_eq_false_iff_not]
  omega

theorem parseInt_decimal {text : Text} {n : Int} (h : decimalInteger text = some n) :
    parseInt text = some (integerNumber n) := by
  unfold decimalInteger at h
  split at h
  · next digits =>
    obtain ⟨m, hm, rfl⟩ := Option.map_eq_some_iff.mp h
    have hread : parseInt ('-' :: digits) = some (JsNumber.ofInteger true m) := takeWhile_unsigned hm
    rw [hread, Option.some_inj, integerNumber, Int.natAbs_neg, Int.natAbs_natCast]
    -- the two zeros are one number
    obtain rfl | hpos := Nat.eq_zero_or_pos m
    · rw [ofInteger_eq_zero.mpr rfl, ofInteger_eq_zero.mpr rfl]
    · rw [decide_eq_true (by omega)]
  · next digits =>
    obtain ⟨m, hm, rfl⟩ := Option.map_eq_some_iff.mp h
    have hread : parseInt ('+' :: digits) = some (JsNumber.ofInteger false m) := takeWhile_unsigned hm
    rw [hread, integerNumber, Int.natAbs_natCast, decide_eq_false (by omega)]
  · next hminus hplus =>
    obtain ⟨m, hm, rfl⟩ := Option.map_eq_some_iff.mp h
    have hfirst : text.dropWhile isSpace = text := by
      cases text with
      | nil => rfl
      | cons c text =>
          refine List.dropWhile_cons_of_neg ?_
          rw [not_isSpace_digit ((unsignedInteger_eq_some.mp hm).1.2 c List.mem_cons_self)]
          exact Bool.false_ne_true
    unfold parseInt JsNumber.parseInt integerNumber
    rw [hfirst, Int.natAbs_natCast, decide_eq_false (by omega)]
    split
    · next rest => exact absurd rfl (hminus rest)
    · next rest => exact absurd rfl (hplus rest)
    · exact takeWhile_unsigned hm

def keys : List Text :=
  ["appid".toList, "Name".toList, "installdir".toList, "SizeOnDisk".toList, "LastUpdated".toList,
    "StateFlags".toList]

/-- No pair of another section is the last of its key. -/
theorem agrees_of_same (numberText : JsNumber → Text) {items : Section} {text : Text} {n : Int}
    (happid : items.given "appid".toList = some text) (hinteger : decimalInteger text = some n)
    (h : ∀ key ∈ keys, items.found key = items.given key) : Agrees numberText items := by
  have hor {key : Text} (hkey : key ∈ keys) (other : Text) : items.found.or key other = items.given.or key other := by
    rw [Entries.or, Entries.or, h key hkey]
  have hread : items.given.or "appid".toList "0".toList = text := by
    rw [Entries.or, happid]
    refine if_neg ?_
    rintro rfl
    cases hinteger
  refine ⟨?_, fun _ _ => hor (by decide) _, fun _ => hor (by decide) _, fun _ key hkey => ?_⟩
  · rw [appidRead, hor (by decide), hread, parseInt_decimal hinteger, Section.appid, happid, Option.bind_some,
      hinteger, Option.filter_some, Option.filter_some]
    simp only [ne_eq, integerNumber_eq_zero, decide_not, Bool.not_eq_true', decide_eq_false_iff_not]
    split <;> rfl
  · exact congrArg parseInt (hor (List.mem_cons_of_mem _ (List.mem_cons_of_mem _ (List.mem_cons_of_mem _ hkey))) _)

/-! ### Manifests as Steam writes them -/

/-- With two tabs between a key and its value, and one more in front for each section around. -/
def Section.lines (indent : Text) : Section → List Text
  | .nil => []
  | .pair key value rest => (indent ++ pairText key ['\t', '\t'] value) :: rest.lines indent
  | .sub name items rest =>
      (indent ++ quoted name) :: (indent ++ ['\x7b']) ::
        (items.lines ('\t' :: indent) ++ (indent ++ ['\x7d']) :: rest.lines indent)

def Section.manifest (items : Section) : Text :=
  ['\n'].intercalate (Section.lines [] (.sub appState items .nil))

theorem padded_indent {indent : Text} (h : Blank indent) (core : Text) : Padded (indent ++ core) core :=
  ⟨indent, [], (List.append_nil _).symm, h, nofun⟩

theorem laid_lines (items : Section) {indent : Text} (h : Blank indent) : Laid items (items.lines indent) := by
  induction items generalizing indent with
  | nil => exact .nil
  | pair key value rest ih =>
      have htabs : Blank ['\t', '\t'] :=
        List.forall_mem_cons.mpr ⟨by decide, List.forall_mem_cons.mpr ⟨by decide, nofun⟩⟩
      exact .pair (List.cons_ne_nil _ _) htabs (padded_indent h _) (ih h)
  | sub name items rest ihitems ihrest =>
      have hinner : Blank ('\t' :: indent) := List.forall_mem_cons.mpr ⟨by decide, h⟩
      exact .sub (padded_indent h _) (padded_indent h _) (ihitems hinner) (padded_indent h _) (ihrest h)

theorem newline_not_mem_lines (items : Section) {indent : Text} (h : '\n' ∉ indent) :
    ∀ line ∈ items.lines indent, '\n' ∉ line := by
  have hquoted (name : Plain) : '\n' ∉ quoted name := by
    unfold quoted
    simp only [List.mem_cons, List.mem_append, List.not_mem_nil, or_false, not_or]
    exact ⟨by decide, name.2.2, by decide⟩
  have hline {core : Text} (hcore : '\n' ∉ core) : '\n' ∉ indent ++ core :=
    List.not_mem_append h hcore
  induction items generalizing indent with
  | nil => nofun
  | pair key value rest ih =>
      refine List.forall_mem_cons.mpr ⟨hline ?_, ih h hline⟩
      exact List.not_mem_append (hquoted key) (List.not_mem_append (by decide) (hquoted value))
  | sub name items rest ihitems ihrest =>
      have hinner : '\n' ∉ '\t' :: indent := List.not_mem_cons_of_ne_of_not_mem (by decide) h
      refine List.forall_mem_cons.mpr ⟨hline (hquoted name), List.forall_mem_cons.mpr ⟨hline (by decide), ?_⟩⟩
      refine List.forall_mem_append.mpr ⟨ihitems hinner (List.not_mem_append hinner), ?_⟩
      exact List.forall_mem_cons.mpr ⟨hline (by decide), ihrest h hline⟩

theorem isManifest_manifest (items : Section) : IsManifest items items.manifest := by
  unfold IsManifest Section.manifest
  rw [List.splitOn_intercalate]
  · exact laid_lines _ nofun
  · exact newline_not_mem_lines _ nofun
  · exact nofun

def languageItem : Section := .pair ⟨"language".toList, by decide⟩ ⟨"english".toList, by decide⟩ .nil

def nameItem (rest : Section) : Section := .pair ⟨"Name".toList, by decide⟩ ⟨"Half-Life".toList, by decide⟩ rest

def userConfig (items rest : Section) : Section := .sub ⟨"UserConfig".toList, by decide⟩ items rest

/-- A name of its own in the section before the name. -/
def namedBefore : Section :=
  .pair ⟨"appid".toList, by decide⟩ ⟨"70".toList, by decide⟩
    (userConfig (.pair ⟨"Name".toList, by decide⟩ ⟨"hl".toList, by decide⟩ languageItem)
      (nameItem (.pair ⟨"StateFlags".toList, by decide⟩ ⟨"4".toList, by decide⟩ .nil)))

/-- A name of its own in the section after the name. -/
def namedAfter : Section :=
  .pair ⟨"appid".toList, by decide⟩ ⟨"70".toList, by decide⟩
    (nameItem (userConfig (.pair ⟨"Name".toList, by decide⟩ ⟨"hl".toList, by decide⟩ languageItem) .nil))

theorem agrees_namedBefore : Agrees integerText namedBefore :=
  agrees_of_same integerText (by decide : namedBefore.given "appid".toList = some "70".toList)
    (by decide : decimalInteger "70".toList = some 70) (by decide)

theorem parseAcfFile_namedBefore :
    parseAcfFile integerText namedBefore.manifest = namedBefore.game integerText :=
  (parseAcfFile_iff integerText namedBefore _ (isManifest_manifest _)).mpr agrees_namedBefore

theorem parseAcfFile_namedAfter : IsManifest namedAfter namedAfter.manifest ∧
    (parseAcfFile integerText namedAfter.manifest).map DiscoveredGame.name = some "hl".toList ∧
    (namedAfter.game integerText).map DiscoveredGame.name = some "Half-Life".toList ∧
    parseAcfFile integerText namedAfter.manifest ≠ namedAfter.game integerText := by
  have hread : (parseAcfFile integerText namedAfter.manifest).map DiscoveredGame.name = some "hl".toList := by
    decide +kernel
  have hgame : (namedAfter.game integerText).map DiscoveredGame.name = some "Half-Life".toList := by
    decide
  refine ⟨isManifest_manifest _, hread, hgame, fun heq => ?_⟩
  rw [heq, hgame] at hread
  exact absurd hread (by decide)

end Stratus.Backend.Manifest
