import Stratus.SideCar.Session

/-! The catalog of `steam_launcher.c` with its arrays.  An id is cut to 36 bytes when it is
stored and not when it is looked up, so a longer id is never found again. -/
namespace Stratus.SideCar

open Stratus.Lib

namespace Catalog

/-- `game_entry_t`. -/
structure GameEntry where
  id : Vector UInt8 37
  title : Vector UInt8 128
  source : GameSource
  appid : Int
  installdir : Vector UInt8 256

/-- An entry of the static array before it is first written. -/
def GameEntry.unused : GameEntry where
  id := Vector.replicate 37 0
  title := Vector.replicate 128 0
  source := .none
  appid := 0
  installdir := Vector.replicate 256 0

end Catalog

/-- `games_catalog` and `game_count`. -/
structure Catalog where
  gamesCatalog : Vector Catalog.GameEntry maxGamesCatalog
  gameCount : Nat
  gameCount_le : gameCount ≤ maxGamesCatalog

namespace Catalog

def initial : Catalog := ⟨Vector.replicate maxGamesCatalog .unused, 0, Nat.zero_le _⟩

/-- What is written to an entry; of the directory only the first byte where none is given. -/
def GameEntry.write (entry : GameEntry) (id title : CText) (source : GameSource) (appid : Int)
    (installdir : Option CText) : GameEntry where
  id := copyText 36 id
  title := copyText 127 title
  source := source
  appid := appid
  installdir :=
    match installdir with
    | some installdir => copyText 255 installdir
    | none => entry.installdir.set 0 0

/-- The catalog with the result of the call. -/
def steamRegisterGame (catalog : Catalog) (id title : CText) (source : GameSource) (appid : Int)
    (installdir : Option CText) : Catalog × Int :=
  if h : catalog.gameCount < maxGamesCatalog then
    (⟨catalog.gamesCatalog.set catalog.gameCount
        (catalog.gamesCatalog[catalog.gameCount].write id title source appid installdir),
      catalog.gameCount + 1, h⟩, 0)
  else (catalog, -1)

/-- The entries that are searched. -/
def entries (catalog : Catalog) : List GameEntry :=
  catalog.gamesCatalog.toList.take catalog.gameCount

/-- The place of the entry that is pointed to, if any. -/
def steamFindGameById (catalog : Catalog) (id : CText) : Option Nat :=
  catalog.entries.findIdx? fun entry => cString entry.id.toList = id.bytes

/-- The arguments of a call of `steam_register_game`. -/
structure Registration where
  id : CText
  title : CText
  source : GameSource
  appid : Int
  installdir : Option CText

def Registration.run (call : Registration) (catalog : Catalog) : Catalog × Int :=
  steamRegisterGame catalog call.id call.title call.source call.appid call.installdir

/-- The calls one after the other, each with its result. -/
def registerAll : List Registration → Catalog → Catalog × List (Registration × Int)
  | [], catalog => (catalog, [])
  | call :: calls, catalog =>
      let (next, result) := call.run catalog
      let (last, results) := registerAll calls next
      (last, (call, result) :: results)

/-- The catalog after these calls. -/
def after (calls : List Registration) : Catalog := (registerAll calls initial).1

/-- The registrations that succeeded, in their order. -/
def succeeded (calls : List Registration) : List Registration :=
  ((registerAll calls initial).2.filter fun done => done.2 = 0).map Prod.fst

/-! ### What is stored -/

/-- The texts in the arrays of an entry. -/
def GameEntry.texts (entry : GameEntry) : SideCar.GameEntry where
  id := cString entry.id.toList
  title := cString entry.title.toList
  source := entry.source
  appid := entry.appid
  installdir := cString entry.installdir.toList

/-- The texts that a call stores. -/
def Registration.texts (call : Registration) : SideCar.GameEntry where
  id := call.id.bytes.take 36
  title := call.title.bytes.take 127
  source := call.source
  appid := call.appid
  installdir := (call.installdir.getD .empty).bytes.take 255

/-- Every array holds a terminator. -/
def GameEntry.Terminated (entry : GameEntry) : Prop :=
  0 ∈ entry.id.toList ∧ 0 ∈ entry.title.toList ∧ 0 ∈ entry.installdir.toList

theorem unused_terminated : GameEntry.unused.Terminated :=
  have hzeros (n : Nat) (h : n ≠ 0) : (0 : UInt8) ∈ (Vector.replicate n (0 : UInt8)).toList :=
    Vector.mem_toList_iff.mpr (Vector.mem_replicate.mpr ⟨h, rfl⟩)
  ⟨hzeros 37 (by decide), hzeros 128 (by decide), hzeros 256 (by decide)⟩

section Write

variable (entry : GameEntry) (call : Registration)

theorem texts_write :
    (entry.write call.id call.title call.source call.appid call.installdir).texts = call.texts := by
  obtain ⟨id, title, source, appid, installdir⟩ := call
  cases installdir with
  | some installdir => simp [GameEntry.write, GameEntry.texts, Registration.texts, cString_copyText]
  | none =>
      have hempty : cString (entry.installdir.set 0 0).toList = [] := by
        obtain ⟨⟨bytes⟩, hsize⟩ := entry.installdir
        cases bytes with
        | nil => cases hsize
        | cons first rest => rfl
      simp [GameEntry.write, GameEntry.texts, Registration.texts, cString_copyText, hempty, CText.empty]

theorem terminated_write :
    (entry.write call.id call.title call.source call.appid call.installdir).Terminated := by
  refine ⟨zero_mem_copyText 36 _, zero_mem_copyText 127 _, ?_⟩
  cases call.installdir with
  | some installdir => exact zero_mem_copyText 255 installdir
  | none => exact Vector.mem_toList_iff.mpr (Vector.mem_set (by decide))

end Write

section Register

variable {catalog : Catalog}

theorem run_of_lt (call : Registration) (h : catalog.gameCount < maxGamesCatalog) :
    (call.run catalog).2 = 0 ∧ (call.run catalog).1.gameCount = catalog.gameCount + 1 ∧
      (call.run catalog).1.gamesCatalog = catalog.gamesCatalog.set catalog.gameCount
        (catalog.gamesCatalog[catalog.gameCount].write call.id call.title call.source call.appid
          call.installdir) := by
  rw [Registration.run, steamRegisterGame, dif_pos h]
  exact ⟨rfl, rfl, rfl⟩

theorem run_of_full (call : Registration) (h : ¬ catalog.gameCount < maxGamesCatalog) :
    call.run catalog = (catalog, -1) := by
  rw [Registration.run, steamRegisterGame, dif_neg h]

/-- A call fails exactly when the array is full. -/
theorem run_eq_neg_one_iff (call : Registration) :
    (call.run catalog).2 = -1 ↔ catalog.gameCount = maxGamesCatalog := by
  have hle := catalog.gameCount_le
  by_cases h : catalog.gameCount < maxGamesCatalog
  · rw [(run_of_lt call h).1]
    constructor
    · exact fun heq => absurd heq (by decide)
    · omega
  · rw [run_of_full call h]
    exact iff_of_true rfl (by omega)

theorem length_entries : catalog.entries.length = catalog.gameCount := by
  rw [entries, List.length_take, Vector.length_toList]
  exact Nat.min_eq_left catalog.gameCount_le

theorem entries_run (call : Registration) (h : catalog.gameCount < maxGamesCatalog) :
    (call.run catalog).1.entries.map GameEntry.texts =
      catalog.entries.map GameEntry.texts ++ [call.texts] := by
  obtain ⟨-, hcount, hgames⟩ := run_of_lt call h
  have hlength : catalog.gameCount < catalog.gamesCatalog.toList.length := by
    rwa [Vector.length_toList]
  rw [entries, hcount, hgames, Vector.toList_set, List.take_succ_eq_append_getElem (by simpa using hlength),
    List.getElem_set_self, List.map_append, List.take_set_of_le (Nat.le_refl _), List.map_singleton,
    texts_write]
  rfl

end Register

/-- The first calls succeed, until the array is full. -/
theorem registerAll_spec (calls : List Registration) (catalog : Catalog) :
    ((registerAll calls catalog).2.filter fun done => done.2 = 0).map Prod.fst =
        calls.take (maxGamesCatalog - catalog.gameCount) ∧
      (registerAll calls catalog).1.entries.map GameEntry.texts =
        catalog.entries.map GameEntry.texts ++
          (calls.take (maxGamesCatalog - catalog.gameCount)).map Registration.texts := by
  induction calls generalizing catalog with
  | nil => simp [registerAll]
  | cons call calls ih =>
      obtain ⟨hsucceeded, hentries⟩ := ih (call.run catalog).1
      by_cases h : catalog.gameCount < maxGamesCatalog
      · obtain ⟨hresult, hcount, -⟩ := run_of_lt call h
        obtain ⟨room, hroom⟩ : ∃ room, maxGamesCatalog - catalog.gameCount = room + 1 :=
          ⟨maxGamesCatalog - catalog.gameCount - 1, by omega⟩
        have hrest : maxGamesCatalog - (catalog.gameCount + 1) = room := by omega
        rw [hcount, hrest] at hsucceeded hentries
        rw [hroom, List.take_succ_cons]
        constructor
        · rw [registerAll, List.filter_cons_of_pos (by simpa using hresult), List.map_cons, hsucceeded]
        · rw [registerAll, hentries, entries_run call h, List.append_assoc]
          rfl
      · have hroom : maxGamesCatalog - catalog.gameCount = 0 := by omega
        rw [run_of_full call h, hroom] at hsucceeded hentries
        rw [hroom, List.take_zero]
        constructor
        · rw [registerAll, run_of_full call h, List.filter_cons_of_neg (by simp), hsucceeded]
          rfl
        · rw [registerAll, run_of_full call h, hentries]
          rfl

theorem succeeded_eq (calls : List Registration) : succeeded calls = calls.take maxGamesCatalog :=
  (registerAll_spec calls initial).1

theorem entries_after (calls : List Registration) :
    (after calls).entries.map GameEntry.texts = (succeeded calls).map Registration.texts := by
  rw [succeeded_eq]
  exact (registerAll_spec calls initial).2

theorem terminated_registerAll (calls : List Registration) (catalog : Catalog)
    (h : ∀ entry ∈ catalog.gamesCatalog, entry.Terminated) :
    ∀ entry ∈ (registerAll calls catalog).1.gamesCatalog, entry.Terminated := by
  induction calls generalizing catalog with
  | nil => exact h
  | cons call calls ih =>
      refine ih (call.run catalog).1 fun entry hmem => ?_
      by_cases hlt : catalog.gameCount < maxGamesCatalog
      · rw [(run_of_lt call hlt).2.2] at hmem
        rcases Vector.mem_or_eq_of_mem_set hmem with hmem | rfl
        · exact h entry hmem
        · exact terminated_write _ call
      · rw [run_of_full call hlt] at hmem
        exact h entry hmem

/-! ### The law -/

/-- A weaker search stops at the same place when what it finds passes the stronger one. -/
theorem findIdx?_eq_iff {α : Type} {p q : α → Bool} (h : ∀ x, q x → p x) (l : List α) :
    l.findIdx? p = l.findIdx? q ↔ ∀ x, l.find? p = some x → q x := by
  induction l with
  | nil => simp
  | cons x l ih =>
      cases hp : p x with
      | true =>
          rw [List.findIdx?_cons, List.findIdx?_cons, List.find?_cons_of_pos hp, hp]
          cases hq : q x with
          | true => simp [hq]
          | false =>
              refine iff_of_false ?_ fun hfound => absurd (hfound x rfl) (by simp [hq])
              cases l.findIdx? q <;> simp
      | false =>
          have hq : q x = false := by
            by_contra hq
            exact absurd (h x (by simpa using hq)) (by simp [hp])
          rw [List.findIdx?_cons, List.findIdx?_cons, List.find?_cons_of_neg (by simp [hp]), hp, hq, ← ih]
          exact (Option.map_injective Nat.succ_injective).eq_iff

theorem steamFindGameById_after (calls : List Registration) (id : CText) :
    steamFindGameById (after calls) id =
      (succeeded calls).findIdx? fun call => call.id.bytes.take 36 = id.bytes := by
  have hmap := congrArg
    (List.findIdx? fun texts : SideCar.GameEntry => decide (texts.id = id.bytes)) (entries_after calls)
  rw [List.findIdx?_map, List.findIdx?_map] at hmap
  exact hmap

/-- The entry holds the texts of a registration, cut to what fits. -/
structure GameEntry.Holds (entry : GameEntry) (call : Registration) : Prop where
  title : cString entry.title.toList = call.title.bytes.take 127
  source : entry.source = call.source
  appid : entry.appid = call.appid
  installdir : cString entry.installdir.toList = (call.installdir.getD .empty).bytes.take 255

/-- What the catalog promises after these calls, for a search for this id. -/
structure RegisterFindLaw (calls : List Registration) (id : CText) : Prop where
  find : steamFindGameById (after calls) id = (succeeded calls).findIdx? fun call => call.id = id
  entry (i : Nat) (call : Registration) : (succeeded calls)[i]? = some call →
    ∃ entry, (after calls).gamesCatalog[i]? = some entry ∧ entry.Holds call
  full (call : Registration) :
    (call.run (after calls)).2 = -1 ↔ (after calls).gameCount = maxGamesCatalog
  unchanged (call : Registration) :
    (call.run (after calls)).2 = -1 → (call.run (after calls)).1 = after calls
  terminated (entry : GameEntry) : entry ∈ (after calls).gamesCatalog → entry.Terminated

theorem holds_of_texts {entry : GameEntry} {call : Registration} (h : entry.texts = call.texts) :
    entry.Holds call where
  title := congrArg SideCar.GameEntry.title h
  source := congrArg SideCar.GameEntry.source h
  appid := congrArg SideCar.GameEntry.appid h
  installdir := congrArg SideCar.GameEntry.installdir h

theorem exists_entry {calls : List Registration} {i : Nat} {call : Registration}
    (h : (succeeded calls)[i]? = some call) :
    ∃ entry, (after calls).gamesCatalog[i]? = some entry ∧ entry.Holds call := by
  have hmap := congrArg (·[i]?) (entries_after calls)
  simp only [List.getElem?_map, h, Option.map_some] at hmap
  obtain ⟨entry, hentry, htexts⟩ := Option.map_eq_some_iff.mp hmap
  refine ⟨entry, ?_, holds_of_texts htexts⟩
  have hlt : i < (after calls).gameCount := by
    rw [← length_entries]
    exact (List.getElem?_eq_some_iff.mp hentry).1
  rwa [entries, List.getElem?_take_of_lt hlt, Vector.getElem?_toList] at hentry

/-- An id as long as the array is found as it was registered if the first game whose id begins
with it is that game; a longer id only if it was not registered. -/
structure IdKept (calls : List Registration) (id : CText) : Prop where
  fits : id.bytes.length = 36 → ∀ call,
    (calls.take maxGamesCatalog).find? (fun call => call.id.bytes.take 36 = id.bytes) = some call →
      call.id = id
  long : 36 < id.bytes.length → ∀ call ∈ calls.take maxGamesCatalog, call.id ≠ id

/-- Only an id that the array cannot hold is stored under another one. -/
theorem take_eq_of_length_le {stored id : CText} (hid : id.bytes.length ≤ 36) (h : stored = id) :
    stored.bytes.take 36 = id.bytes := by
  rw [h, List.take_of_length_le hid]

theorem find_iff (calls : List Registration) (id : CText) :
    ((calls.take maxGamesCatalog).findIdx? (fun call => call.id.bytes.take 36 = id.bytes) =
      (calls.take maxGamesCatalog).findIdx? fun call => call.id = id) ↔ IdKept calls id := by
  by_cases hid : id.bytes.length ≤ 36
  · rw [findIdx?_eq_iff fun call hcall => by simpa using take_eq_of_length_le hid (of_decide_eq_true hcall)]
    simp only [decide_eq_true_eq]
    constructor
    · exact fun h => ⟨fun _ => h, fun hlong => absurd hlong (by omega)⟩
    · intro h call hfound
      rcases Nat.lt_or_eq_of_le hid with hlt | heq
      · have htake : call.id.bytes.take 36 = id.bytes := by simpa using List.find?_some hfound
        have hshort : call.id.bytes.length ≤ 36 := by
          have hlength := congrArg List.length htake
          rw [List.length_take] at hlength
          omega
        rw [List.take_of_length_le hshort] at htake
        exact CText.ext htake
      · exact h.fits heq call hfound
  · have hnone : (calls.take maxGamesCatalog).findIdx?
        (fun call => call.id.bytes.take 36 = id.bytes) = none := by
      refine List.findIdx?_eq_none_iff.mpr fun call _ => decide_eq_false fun heq => hid ?_
      rw [← heq, List.length_take]
      exact Nat.min_le_left _ _
    rw [hnone, eq_comm, List.findIdx?_eq_none_iff]
    simp only [decide_eq_false_iff_not]
    exact ⟨fun h => ⟨fun heq => absurd heq (by omega), fun _ => h⟩, fun h => h.long (by omega)⟩

theorem find_after_iff (calls : List Registration) (id : CText) :
    (steamFindGameById (after calls) id = (succeeded calls).findIdx? fun call => call.id = id) ↔
      IdKept calls id := by
  rw [steamFindGameById_after, succeeded_eq, find_iff]

/-- The law holds exactly for the ids that are kept whole. -/
theorem registerFindLaw_iff (calls : List Registration) (id : CText) :
    RegisterFindLaw calls id ↔ IdKept calls id := by
  constructor
  · exact fun h => (find_after_iff calls id).mp h.find
  · intro h
    refine ⟨(find_after_iff calls id).mpr h, fun i call => exists_entry,
      fun call => run_eq_neg_one_iff call, ?_, ?_⟩
    · intro call hfail
      have hfull := (run_eq_neg_one_iff call).mp hfail
      rw [run_of_full call (by omega)]
    · exact terminated_registerAll calls initial fun entry hentry =>
        (Vector.mem_replicate.mp hentry).2 ▸ unused_terminated

/-- A text of one byte, repeated. -/
def repeated (n : Nat) (byte : UInt8) (h : byte ≠ 0) : CText :=
  ⟨List.replicate n byte, fun hzero => h (List.mem_replicate.mp hzero).2.symm⟩

/-- An id of 99 bytes. -/
def longId : CText := repeated 99 65 (by decide)

def longGame : Registration where
  id := longId
  title := repeated 199 66 (by decide)
  source := .steam
  appid := 730
  installdir := some ⟨[100, 105, 114], by decide⟩

/-- A game that was registered under a long id is not found under it. -/
theorem registerFindLaw_fails : ¬ RegisterFindLaw [longGame] longId := fun h =>
  ((find_after_iff [longGame] longId).mp h.find).long (by decide) longGame List.mem_cons_self rfl

/-! ### The catalog as texts -/

/-- What the arrays hold is what the text model of the catalog says. -/
theorem texts_run (call : Registration) (catalog : Catalog) :
    (call.run catalog).1.entries.map GameEntry.texts =
      SideCar.steamRegisterGame (catalog.entries.map GameEntry.texts) call.id.bytes call.title.bytes
        call.source call.appid (call.installdir.getD .empty).bytes := by
  rw [SideCar.steamRegisterGame, List.length_map, length_entries]
  by_cases h : catalog.gameCount < maxGamesCatalog
  · rw [if_neg (Nat.not_le.mpr h), entries_run call h]
    rfl
  · rw [if_pos (Nat.not_lt.mp h), run_of_full call h]

theorem texts_find (catalog : Catalog) (id : CText) :
    SideCar.steamFindGameById (catalog.entries.map GameEntry.texts) id.bytes =
      (steamFindGameById catalog id).bind fun place =>
        (catalog.entries.map GameEntry.texts)[place]? := by
  rw [SideCar.steamFindGameById, List.find?_eq_bind_findIdx?_getElem?, List.findIdx?_map]
  rfl

end Catalog

end Stratus.SideCar
