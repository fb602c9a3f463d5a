import Stratus.Backend.PersistReload

/-! `ensureLoaded` on a data file with anything in it. -/
namespace Stratus.Backend

open Stratus.Lib

namespace StoreRecovery

/-- What `JSON.parse` gives for a text, `none` where it throws. -/
abbrev Parsed := Option JsValue

/-- The seed file, if there is one. -/
def readSeedGames : Option Parsed → List JsValue
  | some (some (.arr parsed)) =>
      (parsed.filter fun g => (g.field "GameID").any JsValue.isString).map
        (JsValue.withMember "source" (.str "seed"))
  | _ => []

def validUser (u : JsValue) : Bool := (validateUserRecord u.asJson).valid

def validGame (g : JsValue) : Bool := (validateGameRecord g.asJson).valid

/-- The data file after `persist`. -/
def persisted (d : Records) : Parsed := some (.ofJson d.toJson)

/-- The records that are left of a store that is not valid. -/
def recover (parsed : JsValue) : Records where
  users := (JsValue.items (parsed.field "users")).filter validUser
  games := (JsValue.items (parsed.field "games")).filter validGame

/-- What is loaded, and the data file after it; `none` when it throws. -/
def ensureLoaded (seed : Option Parsed) : Parsed → Option (Records × Parsed)
  | none => some (⟨[], readSeedGames seed⟩, persisted ⟨[], readSeedGames seed⟩)
  | some parsed =>
      if (validateStoreData parsed.asJson).valid then
        some (⟨JsValue.items (parsed.field "users"), JsValue.items (parsed.field "games")⟩, some parsed)
      else if parsed.isNull then none
      else some (recover parsed, persisted (recover parsed))

theorem readSeedGames_ofJson (seed : Option Text) :
    readSeedGames (seed.map (Option.map JsValue.ofJson)) =
      ((seed.map seedGames).getD []).map JsValue.ofJson := by
  rcases seed with _ | _ | value
  · rfl
  · rfl
  · cases value with
    | arr values =>
        show ((JsValue.ofJsonItems values).filter _).map _ = ((values.filter _).map _).map _
        rw [JsValue.ofJsonItems_eq, List.filter_map, List.map_map, List.map_map]
        have hstring : ∀ g : Json, ((JsValue.ofJson g).field "GameID").any JsValue.isString =
            (g.field "GameID").any Json.isString := by
          intro g
          rw [JsValue.field_ofJson]
          cases g.field "GameID" with
          | none => rfl
          | some value => cases value <;> rfl
        have hfilter : ((fun g : JsValue => (g.field "GameID").any JsValue.isString) ∘ JsValue.ofJson) =
            fun g : Json => (g.field "GameID").any Json.isString := funext hstring
        rw [hfilter]
        exact List.map_congr_left fun g _ => (JsValue.ofJson_withMember "source" (.str "seed") g).symm
    | _ => rfl

theorem filter_items_ofJson (value : Option Json) (valid : JsValue → Bool) :
    (JsValue.items (value.map JsValue.ofJson)).filter valid =
      ((Json.items value).filter fun record => valid (.ofJson record)).map JsValue.ofJson := by
  rw [JsValue.items_ofJson, List.filter_map]
  rfl

/-- Without infinite numbers it is `ensureLoaded` of a process that has not loaded the store. -/
theorem ensureLoaded_ofJson (env : Environment) (file : Option Text) :
    ensureLoaded (env.seed.map (Option.map JsValue.ofJson)) (file.join.map JsValue.ofJson) =
      (Process.ensureLoaded env ⟨none, file⟩).bind fun p =>
        p.storeData.map fun d => (d, p.file.join.map JsValue.ofJson) := by
  have hfresh : ensureLoaded (env.seed.map (Option.map JsValue.ofJson)) none =
      some (.ofJson [] env.readSeedGames, persisted (.ofJson [] env.readSeedGames)) := by
    rw [ensureLoaded, readSeedGames_ofJson]
    rfl
  rcases file with _ | _ | parsed
  · exact hfresh
  · exact hfresh
  · show ensureLoaded _ (some (JsValue.ofJson parsed)) = _
    rw [ensureLoaded, JsValue.asJson_ofJson, Process.ensureLoaded]
    dsimp only
    rw [JsValue.field_ofJson, JsValue.field_ofJson, recover, JsValue.field_ofJson, JsValue.field_ofJson,
      filter_items_ofJson, filter_items_ofJson, JsValue.items_ofJson, JsValue.items_ofJson]
    split
    · rfl
    · have hvalid : (fun record => validUser (.ofJson record)) =
          (fun u : Json => (validateUserRecord u).valid) ∧
          (fun record => validGame (.ofJson record)) =
            (fun g : Json => (validateGameRecord g).valid) :=
        ⟨funext fun u => by rw [validUser, JsValue.asJson_ofJson],
          funext fun g => by rw [validGame, JsValue.asJson_ofJson]⟩
      rw [hvalid.1, hvalid.2]
      cases parsed <;> rfl

/-- Valid records are loaded, all that there are, and loaded again by the next process. -/
structure Recovered (seed : Option Parsed) (content : Parsed) (d : Records) (after : Parsed) : Prop where
  loaded : ensureLoaded seed content = some (d, after)
  users : ∀ u ∈ d.users, validUser u = true
  games : ∀ g ∈ d.games, validGame g = true
  kept (fields : List (String × JsValue)) : content = some (.obj fields) →
    d.users = (JsValue.items ((JsValue.obj fields).field "users")).filter validUser ∧
      d.games = (JsValue.items ((JsValue.obj fields).field "games")).filter validGame
  again : ∃ after', ensureLoaded seed after = some (d, after')

def Recovers (seed : Option Parsed) (content : Parsed) : Prop := ∃ d after, Recovered seed content d after

/-- No number in the value is infinite. -/
def Finite (value : JsValue) : Prop := ∃ json, value = .ofJson json

/-- What is written to the file can be read from it, and is valid. -/
structure Recoverable (seed : Option Parsed) (content : Parsed) : Prop where
  not_null : content ≠ some .null
  seeded : content = none → ∀ g ∈ readSeedGames seed, validGame g = true ∧ Finite g
  finite (parsed : JsValue) : content = some parsed → (validateStoreData parsed.asJson).valid = false →
    (∀ u ∈ JsValue.items (parsed.field "users"), validUser u = true → Finite u) ∧
      ∀ g ∈ JsValue.items (parsed.field "games"), validGame g = true → Finite g

/-! ### Valid stores -/

variable {seed : Option Parsed} {content after : Parsed} {d : Records}

theorem valid_of_errors {object : Bool} {errors : List String} {error : String}
    (h : (if object then ValidationResult.of errors else ⟨false, [error]⟩).errors = []) :
    (if object then ValidationResult.of errors else ⟨false, [error]⟩).valid = true := by
  cases object with
  | false => cases h
  | true => exact List.isEmpty_iff.mpr h

/-- An array in which nothing is wrong. -/
theorem valid_of_validateRecords {parsed : JsValue} {key : String} {validate : Json → ValidationResult}
    (hvalid : ∀ value, (validate value).errors = [] → (validate value).valid = true)
    (h : validateRecords parsed.asJson key validate = []) :
    ∀ r ∈ JsValue.items (parsed.field key), (validate r.asJson).valid = true := by
  intro r hr
  rw [validateRecords, JsValue.field_asJson] at h
  cases hfield : parsed.field key with
  | none =>
      rw [hfield] at hr
      cases hr
  | some value =>
      rw [hfield] at h hr
      cases value with
      | arr records =>
          rw [Option.map_some, JsValue.asJson, JsValue.asJsonItems_eq] at h
          obtain ⟨i, hi⟩ := List.getElem?_of_mem (List.mem_map_of_mem (f := JsValue.asJson) hr)
          have hnone := List.flatMap_eq_nil_iff.mp h _ (List.mk_mem_zipIdx_iff_getElem?.mpr hi)
          exact hvalid _ (List.map_eq_nil_iff.mp hnone)
      | _ => cases hr

theorem valid_of_validateStoreData {parsed : JsValue}
    (h : (validateStoreData parsed.asJson).valid = true) :
    (∀ u ∈ JsValue.items (parsed.field "users"), validUser u = true) ∧
      ∀ g ∈ JsValue.items (parsed.field "games"), validGame g = true := by
  rw [validateStoreData] at h
  split at h
  · obtain ⟨husers, hgames⟩ := List.append_eq_nil_iff.mp (List.isEmpty_iff.mp h)
    exact ⟨valid_of_validateRecords (fun _ => valid_of_errors) husers,
      valid_of_validateRecords (fun _ => valid_of_errors) hgames⟩
  · cases h

/-! ### Loading again -/

theorem items_persisted (d : Records) :
    JsValue.items ((JsValue.ofJson d.toJson).field "users") = d.users.map (fun u => .ofJson u.toJson) ∧
      JsValue.items ((JsValue.ofJson d.toJson).field "games") = d.games.map (fun g => .ofJson g.toJson) := by
  have hitems (values : List JsValue) : JsValue.ofJsonItems (values.map JsValue.toJson) =
      values.map fun value => .ofJson value.toJson := by
    rw [JsValue.ofJsonItems_eq, List.map_map]
    rfl
  exact ⟨hitems d.users, hitems d.games⟩

theorem finite_of_mem_map {values : List JsValue} {value : JsValue}
    (h : value ∈ values.map fun value => JsValue.ofJson value.toJson) : Finite value := by
  obtain ⟨written, -, rfl⟩ := List.mem_map.mp h
  exact ⟨written.toJson, rfl⟩

/-- From a file that was written nothing infinite is loaded. -/
theorem finite_of_persisted (h : ensureLoaded seed (persisted d) = some (d, after)) :
    (∀ u ∈ d.users, Finite u) ∧ ∀ g ∈ d.games, Finite g := by
  obtain ⟨husers, hgames⟩ := items_persisted d
  rw [persisted, ensureLoaded, recover, husers, hgames] at h
  split at h
  · obtain ⟨hd, -⟩ := Prod.mk.inj (Option.some.inj h)
    rw [← hd]
    exact ⟨fun _ => finite_of_mem_map, fun _ => finite_of_mem_map⟩
  · rw [if_neg (by exact nofun)] at h
    obtain ⟨hd, -⟩ := Prod.mk.inj (Option.some.inj h)
    rw [← hd]
    exact ⟨fun _ hu => finite_of_mem_map (List.mem_of_mem_filter hu),
      fun _ hg => finite_of_mem_map (List.mem_of_mem_filter hg)⟩

theorem map_written {values : List JsValue} (h : ∀ value ∈ values, Finite value) :
    (values.map fun value => JsValue.ofJson value.toJson) = values := by
  refine (List.map_congr_left fun value hvalue => ?_).trans (List.map_id values)
  obtain ⟨json, rfl⟩ := h value hvalue
  rw [JsValue.toJson_ofJson]
  rfl

theorem toJson_eq_asJson {value : JsValue} (h : Finite value) : value.toJson = value.asJson := by
  obtain ⟨json, rfl⟩ := h
  rw [JsValue.toJson_ofJson, JsValue.asJson_ofJson]

/-- Valid records without infinite numbers are loaded as they were written. -/
theorem ensureLoaded_persisted (husers : ∀ u ∈ d.users, validUser u = true ∧ Finite u)
    (hgames : ∀ g ∈ d.games, validGame g = true ∧ Finite g) :
    ensureLoaded seed (persisted d) = some (d, persisted d) := by
  obtain ⟨husers', hgames'⟩ := items_persisted d
  have hvalid : (validateStoreData (JsValue.ofJson d.toJson).asJson).valid = true := by
    rw [JsValue.asJson_ofJson]
    refine validateStoreData_valid rfl rfl rfl ?_ ?_
    · intro u hu
      obtain ⟨value, hvalue, rfl⟩ := List.mem_map.mp hu
      rw [toJson_eq_asJson (husers value hvalue).2]
      exact (husers value hvalue).1
    · intro g hg
      obtain ⟨value, hvalue, rfl⟩ := List.mem_map.mp hg
      rw [toJson_eq_asJson (hgames value hvalue).2]
      exact (hgames value hvalue).1
  rw [persisted, ensureLoaded, if_pos hvalid, husers', hgames', map_written fun u hu => (husers u hu).2,
    map_written fun g hg => (hgames g hg).2]

/-! ### Any content -/

theorem Recoverable.recovers (h : Recoverable seed content) : Recovers seed content := by
  cases content with
  | none =>
      have hgames := h.seeded rfl
      refine ⟨⟨[], readSeedGames seed⟩, _, rfl, nofun, fun g hg => (hgames g hg).1, nofun, ?_⟩
      exact ⟨_, ensureLoaded_persisted nofun hgames⟩
  | some parsed =>
      cases hvalid : (validateStoreData parsed.asJson).valid with
      | true =>
          have hloaded : ensureLoaded seed (some parsed) = some (⟨JsValue.items (parsed.field "users"),
              JsValue.items (parsed.field "games")⟩, some parsed) := if_pos hvalid
          obtain ⟨husers, hgames⟩ := valid_of_validateStoreData hvalid
          refine ⟨_, _, hloaded, husers, hgames, ?_, _, hloaded⟩
          rintro fields ⟨⟩
          exact ⟨(List.filter_eq_self.mpr husers).symm, (List.filter_eq_self.mpr hgames).symm⟩
      | false =>
          obtain ⟨husers, hgames⟩ := h.finite parsed rfl hvalid
          have hloaded : ensureLoaded seed (some parsed) =
              some (recover parsed, persisted (recover parsed)) := by
            rw [ensureLoaded, hvalid]
            cases parsed with
            | null => exact absurd rfl h.not_null
            | _ => rfl
          have husers' : ∀ u ∈ (recover parsed).users, validUser u = true ∧ Finite u := by
            intro u hu
            obtain ⟨hmem, hu⟩ := List.mem_filter.mp hu
            exact ⟨hu, husers u hmem hu⟩
          have hgames' : ∀ g ∈ (recover parsed).games, validGame g = true ∧ Finite g := by
            intro g hg
            obtain ⟨hmem, hg⟩ := List.mem_filter.mp hg
            exact ⟨hg, hgames g hmem hg⟩
          refine ⟨_, _, hloaded, fun u hu => (husers' u hu).1, fun g hg => (hgames' g hg).1, ?_, _,
            ensureLoaded_persisted husers' hgames'⟩
          rintro fields ⟨⟩
          exact ⟨rfl, rfl⟩

theorem Recovers.recoverable (h : Recovers seed content) : Recoverable seed content := by
  obtain ⟨d, after, h⟩ := h
  obtain ⟨after', hagain⟩ := h.again
  have hloaded := h.loaded
  refine ⟨?_, ?_, ?_⟩
  · rintro rfl
    exact absurd hloaded nofun
  · rintro rfl
    obtain ⟨rfl, rfl⟩ := Prod.mk.inj (Option.some.inj hloaded)
    exact fun g hg => ⟨h.games g hg, (finite_of_persisted hagain).2 g hg⟩
  · rintro parsed rfl hinvalid
    rw [ensureLoaded, hinvalid, if_neg Bool.false_ne_true] at hloaded
    split at hloaded
    · cases hloaded
    · obtain ⟨rfl, rfl⟩ := Prod.mk.inj (Option.some.inj hloaded)
      obtain ⟨husers, hgames⟩ := finite_of_persisted hagain
      exact ⟨fun u hmem hu => husers u (List.mem_filter.mpr ⟨hmem, hu⟩),
        fun g hmem hg => hgames g (List.mem_filter.mpr ⟨hmem, hg⟩)⟩

/-- A data file is recovered just if it is not `null`, and nothing that is written to it is invalid or
has an infinite number. -/
theorem recovers_iff (seed : Option Parsed) (content : Parsed) :
    Recovers seed content ↔ Recoverable seed content :=
  ⟨Recovers.recoverable, Recoverable.recovers⟩

/-- `null` is JSON that has no members to look for. -/
theorem null_not_recovered : ¬ ∀ (seed : Option Parsed) (content : Parsed), Recovers seed content := by
  intro hclaim
  obtain ⟨d, after, h⟩ := hclaim none (some .null)
  exact absurd h.loaded nofun

end StoreRecovery

end Stratus.Backend
