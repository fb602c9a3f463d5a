import Stratus.SideCar.Heartbeat

/-! The games of the heartbeats and the catalog.  The id of a game of Steam is in `game_id`,
which ends with the block it is declared in, before the message is made from it. -/
namespace Stratus.SideCar

open Stratus.Lib Heartbeat

namespace AdvertisedGames

/-- The two directories at one heartbeat, with what `api_send_heartbeat` returns.  A name fits
`d_name`, and stands once in its directory. -/
structure Listings where
  game : List CText
  steam : List CText
  sent : Int
  game_nodup : game.Nodup
  steam_nodup : steam.Nodup
  steam_length : ∀ name ∈ steam, name.bytes.length ≤ 255
  fits : (visible game).length + (visible steam).length ≤ 63

def Listings.heartbeat (l : Listings) (catalog : Catalog) : Heartbeat.Result :=
  Heartbeat.sidecarHeartbeat (working l.game (some l.steam) l.sent) catalog

/-- The id that is read where the message is made; `none` where the object is no more. -/
def read : Name → Option CText
  | .entry name => some name
  | .gameId _ => none

/-- The ids in the message, if one is sent. -/
def Listings.ids (l : Listings) (catalog : Catalog) : List (Option CText) :=
  ((l.heartbeat catalog).sent.getD []).map read

/-- The entry is that of the game in this directory of Steam. -/
def IsGame (name : CText) (entry : SideCar.GameEntry) : Prop := entry.installdir = name.bytes

instance (name : CText) : DecidablePred (IsGame name) := fun _ => by
  unfold IsGame
  infer_instance

/-- How many entries of a catalog are those of this game. -/
def held (catalog : Catalog) (name : CText) : Nat :=
  (catalog.entries.map Catalog.GameEntry.texts).countP fun entry => IsGame name entry

/-- The catalog holds each installed game of Steam once. -/
def Listings.Catalogued (l : Listings) (catalog : Catalog) : Prop :=
  ∀ name ∈ visible l.steam, held catalog name = 1

/-- What is promised of one heartbeat, with the catalog before it. -/
structure Advertised (l : Listings) (catalog : Catalog) : Prop where
  ids : ∃ ids : List CText, l.ids catalog = ids.map some ∧ ids.Nodup ∧
    ids.length = (visible l.game).length + (visible l.steam).length
  catalogued : l.Catalogued (l.heartbeat catalog).scan.catalog
  launches (place : Nat) (name : CText) : (visible l.steam)[place]? = some name →
    ∃ id entry, (l.ids catalog)[(visible l.game).length + place]? = some (some id) ∧
      ((l.heartbeat catalog).scan.catalog.steamFindGameById id).bind
        (((l.heartbeat catalog).scan.catalog.entries.map Catalog.GameEntry.texts)[·]?) = some entry ∧
      IsGame name entry

/-- Heartbeats one after the other. -/
def AllAdvertised : List Listings → Catalog → Prop
  | [], _ => True
  | l :: rest, catalog => Advertised l catalog ∧ AllAdvertised rest (l.heartbeat catalog).scan.catalog

/-! ### One heartbeat -/

theorem map_read_entries (l : List CText) (i : Nat) :
    (namesFrom (fun ent _ => .entry ent) i l).map read = l.map some := by
  induction l generalizing i with
  | nil => rfl
  | cons ent rest ih => simp [namesFrom, read, ih]

theorem map_read_gameIds (name : Nat → CText) (l : List CText) (i : Nat) :
    (namesFrom (fun _ i => .gameId (name i)) i l).map read = l.map fun _ => none := by
  induction l generalizing i with
  | nil => rfl
  | cons ent rest ih => simp [namesFrom, read, ih]

section Fits

variable (l : Listings) (catalog : Catalog)

theorem Listings.take_game : (visible l.game).take maxGames = visible l.game := by
  have hfits := l.fits
  exact List.take_of_length_le (by rw [maxGames]; omega)

theorem Listings.take_steam :
    (visible l.steam).take (maxGames - (visible l.game).length) = visible l.steam := by
  have hfits := l.fits
  exact List.take_of_length_le (by rw [maxGames]; omega)

theorem Listings.length_scanned :
    (scanned l.game catalog).games.length = (visible l.game).length := by
  rw [games_scanned, l.take_game, length_namesFrom]

/-- The games of Steam have no ids in the message. -/
theorem Listings.ids_eq :
    l.ids catalog = (visible l.game).map some ++ (visible l.steam).map fun _ => none := by
  rw [Listings.ids, Listings.heartbeat, heartbeat_some, Option.getD_some, games_scannedBoth,
    l.length_scanned, l.take_steam, games_scanned, l.take_game, List.map_append, map_read_entries,
    map_read_gameIds]

/-- Every game of Steam is registered, whatever the catalog holds. -/
theorem Listings.catalog_heartbeat :
    (l.heartbeat catalog).scan.catalog =
      (Catalog.registerAll (registrations (visible l.game).length (visible l.steam)) catalog).1 := by
  rw [Listings.heartbeat, heartbeat_some]
  exact (catalog_scannedBoth l.game catalog l.steam).trans (by rw [l.length_scanned, l.take_steam])

end Fits

theorem visible_nodup {entries : List CText} (h : entries.Nodup) : (visible entries).Nodup :=
  h.filter _

/-- A heartbeat keeps its promise exactly where nothing of Steam is installed. -/
theorem advertised_iff (l : Listings) (catalog : Catalog) :
    Advertised l catalog ↔ visible l.steam = [] := by
  constructor
  · intro h
    obtain ⟨ids, hids, -, -⟩ := h.ids
    rw [l.ids_eq] at hids
    refine List.eq_nil_iff_forall_not_mem.mpr fun name hname => ?_
    have hnone : (none : Option CText) ∈ ids.map some := by
      rw [← hids]
      exact List.mem_append_right _ (List.mem_map.mpr ⟨name, hname, rfl⟩)
    obtain ⟨id, -, hid⟩ := List.mem_map.mp hnone
    cases hid
  · intro h
    refine ⟨⟨visible l.game, ?_, visible_nodup l.game_nodup, by simp [h]⟩, ?_, ?_⟩
    · rw [l.ids_eq, h, List.map_nil, List.append_nil]
    · rw [Listings.Catalogued, h]
      exact nofun
    · intro place name hname
      rw [h] at hname
      cases hname

/-- So do the heartbeats of a run. -/
theorem allAdvertised_iff (run : List Listings) (catalog : Catalog) :
    AllAdvertised run catalog ↔ ∀ l ∈ run, visible l.steam = [] := by
  induction run generalizing catalog with
  | nil => exact iff_of_true trivial nofun
  | cons l rest ih =>
      rw [AllAdvertised, advertised_iff, ih, List.forall_mem_cons]

/-- One game in each directory. -/
def oneEach : Listings where
  game := [.ofBytes (utf8 "chess")]
  steam := [.ofBytes (utf8 "portal")]
  sent := 0
  game_nodup := List.nodup_singleton _
  steam_nodup := List.nodup_singleton _
  steam_length := by decide
  fits := by decide

/-- The first heartbeat already has no id for the game of Steam. -/
theorem oneEach_not_advertised : ¬ AllAdvertised [oneEach] .initial := fun h =>
  absurd ((advertised_iff oneEach .initial).mp h.1) (by decide)

/-! ### The catalog -/

/-- A name is registered as often as it stands in the listing. -/
theorem countP_registrations (name : CText) (i : Nat) {l : List CText}
    (hlength : ∀ ent ∈ l, ent.bytes.length ≤ 255) :
    ((registrations i l).map Catalog.Registration.texts).countP (fun entry => IsGame name entry) =
      l.count name := by
  induction l generalizing i with
  | nil => rfl
  | cons ent rest ih =>
      obtain ⟨hent, hrest⟩ := List.forall_mem_cons.mp hlength
      have hgame : IsGame name (Catalog.Registration.texts ⟨gameId i, ent, .steam, 0, some ent⟩) ↔
          ent = name := by
        rw [IsGame, Catalog.Registration.texts, Option.getD_some, List.take_of_length_le hent,
          CText.ext_iff]
      rw [registrations, List.map_cons, List.countP_cons, List.count_cons, ih (i + 1) hrest]
      simp only [hgame, decide_eq_true_eq, beq_iff_eq]

/-- Every heartbeat adds one more entry for an installed game, as long as there is room. -/
theorem held_heartbeat (l : Listings) {catalog : Catalog} {name : CText} (hname : name ∈ visible l.steam)
    (hroom : catalog.gameCount + (visible l.steam).length ≤ maxGamesCatalog) :
    held (l.heartbeat catalog).scan.catalog name = held catalog name + 1 := by
  have hlength : ∀ ent ∈ visible l.steam, ent.bytes.length ≤ 255 := fun ent hent =>
    l.steam_length ent (List.mem_filter.mp hent).1
  have hall : (registrations (visible l.game).length (visible l.steam)).take
      (maxGamesCatalog - catalog.gameCount) = registrations (visible l.game).length (visible l.steam) :=
    List.take_of_length_le (by rw [length_registrations]; omega)
  rw [held, held, l.catalog_heartbeat, (Catalog.registerAll_spec _ catalog).2, hall, List.countP_append,
    countP_registrations name _ hlength,
    List.count_eq_one_of_mem (visible_nodup l.steam_nodup) hname]

/-- So a game that the catalog held once is held twice after the next heartbeat. -/
theorem not_catalogued_again (l next : Listings) {catalog : Catalog} {name : CText}
    (hname : name ∈ visible l.steam) (hagain : name ∈ visible next.steam)
    (hroom : catalog.gameCount + (visible next.steam).length ≤ maxGamesCatalog)
    (h : l.Catalogued catalog) : ¬ next.Catalogued (next.heartbeat catalog).scan.catalog := by
  intro hnext
  have hone : held catalog name = 1 := h name hname
  have htwo : held (next.heartbeat catalog).scan.catalog name = 1 := hnext name hagain
  rw [held_heartbeat next hagain hroom, hone] at htwo
  cases htwo

end AdvertisedGames

end Stratus.SideCar
