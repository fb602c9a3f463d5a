import Stratus.Backend.LocalStore

/-! What is kept of the records that store operations create.  The store is only as
durable as its first load: an `ensureLoaded` that finishes on a loaded store puts the
file's old records in its place. -/
namespace Stratus.Backend

open Stratus.Lib

namespace Store

variable {s s' : Store} {t : Table} {e : Entry}

def Has (s : Store) (t : Table) (e : Entry) : Prop := ∃ d, s.storeData = some d ∧ e ∈ d.table t

/-- The record is in the text that the file has or is about to have. -/
def Saved (s : Store) (t : Table) (value : Json) : Prop :=
  (s.writing = none → s.InFile t value) ∧
    ∀ text, s.writing = some text → value ∈ Json.items (text.field t.key)

/-- The record will be in the text of a write that has been asked for. -/
def Awaited (s : Store) (t : Table) (value : Json) : Prop :=
  ∃ place ∈ s.calls, ∀ ticket, place = some ticket → s.written ≤ ticket ∧
    (ticket = s.written → ∀ text, s.writing = some text → value ∈ Json.items (text.field t.key))

structure Inv (s : Store) : Prop where
  unloaded : s.storeData = none → s.Unloaded
  written_le : s.written ≤ s.tickets
  writing_lt : ∀ text, s.writing = some text → s.written < s.tickets
  covered : ∀ t e, s.Has t e → s.Saved t e.value ∨ s.Awaited t e.value

/-- What every step of every task leaves alone. -/
structure Rely (s s' : Store) : Prop where
  deleted : ∀ r ∈ s.deleted, r ∈ s'.deleted
  kept : ∀ t e, s.Has t e → s'.Has t e ∨ e.ref ∈ s'.deleted
  file : s'.storeData = none → s.storeData = none ∧ s'.file = s.file

theorem Rely.refl (s : Store) : Rely s s where
  deleted _ hr := hr
  kept _ _ he := .inl he
  file hs := ⟨hs, rfl⟩

theorem Rely.trans {s'' : Store} (h : Rely s s') (h' : Rely s' s'') : Rely s s'' where
  deleted r hr := h'.deleted r (h.deleted r hr)
  kept t e he := by
    rcases h.kept t e he with he | he
    · exact h'.kept t e he
    · exact .inr (h'.deleted _ he)
  file hs := by
    obtain ⟨hs', hfile'⟩ := h'.file hs
    obtain ⟨hs, hfile⟩ := h.file hs'
    exact ⟨hs, hfile'.trans hfile⟩

end Store

open Store

def contract : Contract Request Request.Answer Store where
  answers := answers
  inv := Inv
  rely := Rely
  allowed := LoadsOnce
  refl := Rely.refl
  trans _ _ _ := Rely.trans

variable {s s₀ : Store} {t : Table} {e : Entry}

/-! ### The texts -/

theorem toJson_table (d : StoreData) (t : Table) :
    Json.items (d.toJson.field t.key) = (d.table t).map Entry.value := by
  cases t <;> rfl

theorem mem_toJson {d : StoreData} (he : e ∈ d.table t) :
    e.value ∈ Json.items (d.toJson.field t.key) := by
  rw [toJson_table]
  exact List.mem_map_of_mem he

theorem value_mem_of_entries {fresh : Nat} {values : List Json} (he : e ∈ entries fresh values) :
    e.value ∈ values := by
  obtain ⟨⟨value, i⟩, hvalue, rfl⟩ := List.mem_map.mp he
  exact List.fst_mem_of_mem_zipIdx hvalue

/-! ### The write queue -/

theorem Writes.keeps {s' : Store} (hs : Inv s) (h : Writes s s') : contract.Keeps s s' := by
  intro _
  have hdata (hlt : s.written < s.tickets) : s.storeData ≠ none := by
    intro hnone
    have hzero := (hs.unloaded hnone).tickets
    omega
  cases h with
  | start hwriting hlt =>
      refine ⟨⟨fun h => absurd h (hdata hlt), hs.written_le, fun _ _ => hlt, ?_⟩,
        ⟨fun _ hr => hr, fun _ _ he => .inl he, fun h => absurd h (hdata hlt)⟩⟩
      rintro t e ⟨d, hd, he⟩
      replace hd : s.storeData = some d := hd
      refine .inl ⟨nofun, fun text htext => ?_⟩
      rw [hd] at htext
      obtain rfl : d.toJson = text := Option.some.inj htext
      exact mem_toJson he
  | @finish text hwriting =>
      have hlt := hs.writing_lt text hwriting
      refine ⟨⟨fun h => absurd h (hdata hlt), hlt, nofun, ?_⟩,
        ⟨fun _ hr => hr, fun _ _ he => .inl he, fun h => absurd h (hdata hlt)⟩⟩
      intro t e he
      have hsaved (hmem : e.value ∈ Json.items (text.field t.key)) :
          Saved { s with file := .content (some text), writing := none, written := s.written + 1 } t
            e.value := ⟨fun _ => ⟨text, rfl, hmem⟩, nofun⟩
      rcases hs.covered t e he with h | ⟨place, hplace, h⟩
      · exact .inl (hsaved (h.2 text hwriting))
      · cases place with
        | none => exact .inr ⟨none, hplace, nofun⟩
        | some ticket =>
            obtain ⟨hle, hmem⟩ := h ticket rfl
            by_cases hticket : ticket = s.written
            · exact .inl (hsaved (hmem hticket text hwriting))
            · refine .inr ⟨some ticket, hplace, ?_⟩
              rintro _ ⟨⟩
              refine ⟨?_, nofun⟩
              change s.written + 1 ≤ ticket
              omega

/-- A state with one more call of `persist`. -/
def Store.called (s : Store) : Store := { s with calls := s.calls ++ [none] }

theorem called_covered (s : Store) (t : Table) (value : Json) : s.called.Awaited t value :=
  ⟨none, List.mem_append_right _ (List.mem_singleton_self _), nofun⟩

/-- A change of the records followed by a call of `persist`. -/
theorem keeps_called (hs₀ : Inv s₀) (hdata : s.storeData ≠ none) (hqueue : s.written = s₀.written ∧
      s.tickets = s₀.tickets ∧ s.writing = s₀.writing)
    (hdeleted : ∀ r ∈ s₀.deleted, r ∈ s.deleted)
    (hkept : LoadsOnce s₀ s → ∀ t e, s₀.Has t e → s.Has t e ∨ e.ref ∈ s.deleted) :
    contract.Keeps s₀ s.called := by
  obtain ⟨hwritten, htickets, hwriting⟩ := hqueue
  intro hallowed
  refine ⟨⟨fun h => absurd h hdata, ?_, ?_, fun t e _ => .inr (called_covered s t e.value)⟩,
    ⟨hdeleted, hkept hallowed, fun h => absurd h hdata⟩⟩
  · change s.written ≤ s.tickets
    rw [hwritten, htickets]
    exact hs₀.written_le
  · intro text htext
    change s.written < s.tickets
    rw [hwritten, htickets]
    exact hs₀.writing_lt text (hwriting ▸ htext)

/-- The callback gets its place in the queue. -/
theorem keeps_queued (hs : Inv s) (i : Nat) (hdata : s.storeData ≠ none) :
    contract.Keeps s { s with tickets := s.tickets + 1, calls := s.calls.set i (some s.tickets) } := by
  intro _
  refine ⟨⟨fun h => absurd h hdata, Nat.le_succ_of_le hs.written_le,
      fun text h => Nat.lt_succ_of_lt (hs.writing_lt text h), ?_⟩,
    ⟨fun _ hr => hr, fun _ _ he => .inl he, fun h => absurd h hdata⟩⟩
  intro t e he
  rcases hs.covered t e he with h | ⟨place, hplace, h⟩
  · exact .inl h
  · right
    by_cases hmem : place ∈ s.calls.set i (some s.tickets)
    · exact ⟨place, hmem, h⟩
    · -- its place is the one that has been taken, later than the write being done
      have hi : i < s.calls.length := by
        by_contra hge
        rw [List.set_eq_of_length_le (by omega)] at hmem
        exact hmem hplace
      refine ⟨some s.tickets, List.mem_set hi _, ?_⟩
      rintro _ ⟨⟩
      refine ⟨hs.written_le, fun heq text htext => ?_⟩
      have hlt := hs.writing_lt text htext
      replace heq : s.tickets = s.written := heq
      omega

/-! ### The code -/

theorem stable_true : contract.Stable fun _ => True := fun _ _ _ _ _ => trivial

theorem stable_loaded : contract.Stable fun s => s.storeData ≠ none :=
  fun _ _ hrely _ hs h => hs (hrely.file h).1

/-- A record stays until it is deleted. -/
theorem stable_has (t : Table) (e : Entry) :
    contract.Stable fun s => s.Has t e ∨ e.ref ∈ s.deleted := by
  intro s s' hrely _ h
  rcases h with h | h
  · exact hrely.kept t e h
  · exact .inr (hrely.deleted _ h)

theorem keeps_refl (hs : Inv s) : contract.Keeps s s := fun _ => ⟨hs, Rely.refl s⟩

/-- At the beginning of a stretch, with an assertion that others keep. -/
def Fresh {α : Type} (p : α → Store → Prop) (s₀ : Store) (a : α) (s : Store) : Prop :=
  s = s₀ ∧ Inv s ∧ p a s

theorem call_runs {α : Type} {f : Async α} {p : α → Store → Prop} (hp : ∀ a, contract.Stable (p a))
    (h : contract.Runs (fun s₀ a s => contract.Keeps s₀ s ∧ (LoadsOnce s₀ s → p a s)) s₀ f s) :
    contract.Runs (Fresh p) s₀ (call f) s := by
  refine Contract.Runs.bind (h.mono ?_)
  rintro s₀ a s ⟨hkeeps, hs⟩
  exact (Contract.Runs.yield hkeeps (hp a) hs).bind

theorem persist_runs {p : Store → Prop} (hp : contract.Stable p) (hdata : s.storeData ≠ none)
    (hkeeps : contract.Keeps s₀ s.called) (hs : LoadsOnce s₀ s.called → p s.called) :
    contract.Runs (Fresh fun _ => p) s₀ persist s := by
  unfold persist
  rw [Contract.runs_state]
  split
  · next hnone => exact absurd hnone hdata
  · have hmkdir : contract.Runs (Fresh fun _ s => s.storeData ≠ none ∧ p s) s₀ mkdir s.called :=
      Contract.Runs.yield hkeeps (stable_loaded.and hp) fun hallowed => ⟨hdata, hs hallowed⟩
    refine Contract.runs_put.mpr (Contract.Runs.bind (hmkdir.mono ?_))
    rintro _ _ s₁ ⟨rfl, hinv₁, hdata₁, hp₁⟩
    refine Contract.runs_state.mpr (Contract.runs_put.mpr ?_)
    have hqueued := keeps_queued hinv₁ s.calls.length hdata₁
    refine Contract.Runs.yield hqueued hp fun hallowed => ?_
    obtain ⟨hinv₂, hrely⟩ := hqueued hallowed
    exact hp _ _ hrely hinv₂ hp₁

/-- `await persist()` after a change of the records. -/
theorem call_persist_runs {p : Store → Prop} (hp : contract.Stable p) (hdata : s.storeData ≠ none)
    (hkeeps : contract.Keeps s₀ s.called) (hs : LoadsOnce s₀ s.called → p s.called) :
    contract.Runs (Fresh fun _ => p) s₀ (call persist) s := by
  refine call_runs (fun _ => hp) ((persist_runs hp hdata hkeeps hs).mono ?_)
  rintro _ _ s₁ ⟨rfl, hinv, hp₁⟩
  exact ⟨keeps_refl hinv, fun _ => hp₁⟩

theorem wait_runs (hs : Inv s) (request : Request) :
    contract.Runs (Fresh fun _ _ => True) s (Coro.wait request) s :=
  Contract.Runs.yield (keeps_refl hs) stable_true fun _ => trivial

theorem pathExists_runs (hs : Inv s) (path : Path) :
    contract.Runs (Fresh fun _ _ => True) s (call (pathExists path)) s := by
  refine call_runs (fun _ => stable_true) ((wait_runs hs (.access path)).mono ?_)
  rintro _ _ s₁ ⟨rfl, hinv, -⟩
  exact ⟨keeps_refl hinv, fun _ => trivial⟩

theorem readSeedGames_runs (hs : Inv s) :
    contract.Runs (Fresh fun _ _ => True) s (call readSeedGames) s := by
  refine call_runs (fun _ => stable_true) ?_
  unfold readSeedGames
  refine Contract.Runs.bind ((pathExists_runs hs .seed).mono ?_)
  rintro _ found s₁ ⟨rfl, hinv, -⟩
  split
  · refine Contract.Runs.bind ((wait_runs hinv (.readFile .seed)).mono ?_)
    rintro _ _ s₂ ⟨rfl, hinv₂, -⟩
    exact ⟨keeps_refl hinv₂, fun _ => trivial⟩
  · exact ⟨keeps_refl hinv, fun _ => trivial⟩

/-- An assignment is only looked at when the store is not loaded. -/
theorem LoadsOnce.unloaded {users games : List Json} (h : LoadsOnce s (s.assign users games)) :
    s.storeData = none := by
  cases hdata : s.storeData with
  | none => rfl
  | some d =>
      have hloads : s.loads + 1 = s.loads := h (by rw [hdata]; rfl)
      omega

theorem not_has_of_unloaded (h : s.storeData = none) : ¬ s.Has t e := by
  rintro ⟨d, hd, -⟩
  rw [h] at hd
  cases hd

theorem assign_persist_runs (hs : Inv s) (users games : List Json) :
    contract.Runs (fun s₀ _ s => contract.Keeps s₀ s) s
      (do
        assign users games
        call persist) s := by
  have hkeeps : contract.Keeps s (s.assign users games).called := by
    refine keeps_called hs nofun ⟨rfl, rfl, rfl⟩ (fun _ hr => hr) fun hallowed t e he => ?_
    exact absurd he (not_has_of_unloaded hallowed.unloaded)
  refine Contract.Runs.mono ?_ (call_persist_runs stable_true nofun hkeeps fun _ => trivial)
  rintro _ _ s₁ ⟨rfl, hinv, -⟩
  exact keeps_refl hinv

/-- What has been read is still in the file, as long as the store is not loaded. -/
theorem stable_read (text : Text) :
    contract.Stable fun s => s.storeData = none → s.file = .content text := by
  intro s s' hrely _ h hnone
  obtain ⟨hs, hfile⟩ := hrely.file hnone
  rw [hfile, h hs]

theorem readFile_runs (hs : Inv s) :
    contract.Runs (Fresh fun text s => s.storeData = none → s.file = .content text) s
      (readFile .store) s := by
  refine Contract.Runs.wait (keeps_refl hs) stable_read fun _ s₁ text _ hinv hanswer hnone => ?_
  unfold contract answers at hanswer
  dsimp only at hanswer
  cases hfile : s₁.file with
  | absent =>
      rw [hfile] at hanswer
      exact absurd hanswer id
  | content content =>
      rw [hfile] at hanswer
      rw [show text = content from hanswer]
  | torn => exact absurd hfile (hinv.unloaded hnone).file

/-- The records of a valid file are taken over and need not be written. -/
theorem keeps_assign_read {parsed : Json} (hs : Inv s)
    (hread : s.storeData = none → s.file = .content (some parsed)) :
    contract.Keeps s (s.assign (Json.items (parsed.field "users"))
      (Json.items (parsed.field "games"))) := by
  intro hallowed
  have hnone : s.storeData = none := hallowed.unloaded
  have hunloaded := hs.unloaded hnone
  refine ⟨⟨nofun, hs.written_le, hs.writing_lt, ?_⟩, ⟨fun _ hr => hr, fun t e he => ?_, nofun⟩⟩
  · rintro t e ⟨_, ⟨⟩, he⟩
    refine .inl ⟨fun _ => ⟨parsed, hread hnone, ?_⟩, fun text htext => ?_⟩
    · cases t with
      | users => exact value_mem_of_entries he
      | games => exact value_mem_of_entries he
    · replace htext : s.writing = some text := htext
      rw [hunloaded.writing] at htext
      cases htext
  · exact absurd he (not_has_of_unloaded hnone)

theorem ensureLoaded_runs (hs : Inv s) :
    contract.Runs (fun s₀ _ s => contract.Keeps s₀ s) s ensureLoaded s := by
  unfold ensureLoaded
  rw [Contract.runs_state]
  split
  · exact keeps_refl hs
  · refine Contract.Runs.bind ((wait_runs hs .mkdir).mono ?_)
    rintro _ _ s₁ ⟨rfl, hinv₁, -⟩
    refine Contract.Runs.bind ((pathExists_runs hinv₁ .store).mono ?_)
    rintro _ found s₂ ⟨rfl, hinv₂, -⟩
    split
    · refine Contract.Runs.bind ((readFile_runs hinv₂).mono ?_)
      rintro _ text s₃ ⟨rfl, hinv₃, hread⟩
      split
      · refine Contract.Runs.bind ((readSeedGames_runs hinv₃).mono ?_)
        rintro _ games s₄ ⟨rfl, hinv₄, -⟩
        exact assign_persist_runs hinv₄ [] games
      · split
        · exact keeps_assign_read hinv₃ hread
        · split
          · exact keeps_refl hinv₃
          · exact assign_persist_runs hinv₃ _ _
    · refine Contract.Runs.bind ((readSeedGames_runs hinv₂).mono ?_)
      rintro _ games s₃ ⟨rfl, hinv₃, -⟩
      exact assign_persist_runs hinv₃ [] games

theorem call_ensureLoaded_runs (hs : Inv s) :
    contract.Runs (Fresh fun _ _ => True) s (call ensureLoaded) s := by
  refine call_runs (fun _ => stable_true) ((ensureLoaded_runs hs).mono ?_)
  intro s₀ _ s hkeeps
  exact ⟨hkeeps, fun _ => trivial⟩

/-! ### Operations -/

/-- What an operation that has resolved leaves behind. -/
def Kept : Result → Store → Prop
  | .created t e, s => s.Has t e ∨ e.ref ∈ s.deleted
  | _, _ => True

theorem stable_kept (a : Result) : contract.Stable (Kept a) := by
  cases a with
  | created t e => exact stable_has t e
  | _ => exact stable_true

theorem loaded_runs {α : Type} {f : StoreData → Async α} {post : Store → α → Store → Prop}
    (hs : Inv s) (h : ∀ d, s.storeData = some d → contract.Runs post s (f d) s) :
    contract.Runs post s (loaded >>= f) s := by
  refine Contract.Runs.bind ?_
  unfold loaded
  rw [Contract.runs_state]
  split
  · next d hd => exact h d hd
  · exact keeps_refl hs

theorem getter_runs {α : Type} (hs : Inv s) (read : StoreData → α) :
    contract.Runs (Fresh fun _ _ => True) s (getter read) s := by
  unfold getter
  refine Contract.Runs.bind ((call_ensureLoaded_runs hs).mono ?_)
  rintro _ _ s₁ ⟨rfl, hinv₁, -⟩
  exact loaded_runs hinv₁ fun d _ => ⟨rfl, hinv₁, trivial⟩

/-- An operation ends at the beginning of a stretch. -/
theorem ends_of_fresh {a : Result} (hinv : Inv s) (h : Kept a s) : contract.Ends Kept s a s :=
  fun _ => ⟨hinv, Rely.refl s, h⟩

theorem mem_push {d : StoreData} {t' : Table} {e' : Entry} (he : e ∈ d.table t) :
    e ∈ (d.push t' e').table t := by
  cases t <;> cases t' <;> first | exact he | exact List.mem_append_left _ he

theorem push_mem (d : StoreData) : e ∈ (d.push t e).table t := by
  cases t <;> exact List.mem_append_right _ (List.mem_singleton_self _)

/-- The end of every creating operation. -/
theorem create_runs (hs : Inv s) (t : Table) (value : Json) :
    contract.Runs (contract.Ends Kept) s
      (do
        let e ← push t value
        call persist
        return .created t e) s := by
  unfold push
  refine Contract.Runs.bind (loaded_runs hs fun d hd => ?_)
  refine Contract.runs_state.mpr (Contract.runs_put.mpr ?_)
  have hkeeps : contract.Keeps s (Store.called
      { s with storeData := some (d.push t ⟨s.fresh, value⟩), fresh := s.fresh + 1 }) := by
    refine keeps_called hs nofun ⟨rfl, rfl, rfl⟩ (fun _ hr => hr) ?_
    rintro - t' e ⟨d', hd', he⟩
    rw [hd] at hd'
    cases hd'
    exact .inl ⟨_, rfl, mem_push he⟩
  refine Contract.Runs.bind (Contract.Runs.mono ?_
    (call_persist_runs (stable_has t ⟨s.fresh, value⟩) nofun hkeeps
      fun _ => .inl ⟨_, rfl, push_mem d⟩))
  rintro _ _ s₁ ⟨rfl, hinv₁, hhas⟩
  exact ends_of_fresh hinv₁ hhas

theorem createUser_runs (js : Unicode) (hs : Inv s) (input : NewUser) (uuid : String) :
    contract.Runs (contract.Ends Kept) s (createUser js input uuid) s := by
  unfold createUser
  refine Contract.Runs.bind ((call_ensureLoaded_runs hs).mono ?_)
  rintro _ _ s₁ ⟨rfl, hinv₁, -⟩
  dsimp only
  split
  · exact keeps_refl hinv₁
  · have hfind : contract.Runs (Fresh fun _ _ => True) s₁
        (call (getUserByUsername js (js.trim input.username))) s₁ := by
      refine call_runs (fun _ => stable_true) ((getter_runs hinv₁ _).mono ?_)
      rintro _ _ s₂ ⟨rfl, hinv₂, -⟩
      exact ⟨keeps_refl hinv₂, fun _ => trivial⟩
    refine Contract.Runs.bind (hfind.mono ?_)
    rintro _ existing s₂ ⟨rfl, hinv₂, -⟩
    split
    · exact keeps_refl hinv₂
    · exact create_runs hinv₂ .users _

theorem createGame_runs (hs : Inv s) (input : Json) (uuid : String) :
    contract.Runs (contract.Ends Kept) s (createGame input uuid) s := by
  unfold createGame
  refine Contract.Runs.bind ((call_ensureLoaded_runs hs).mono ?_)
  rintro _ _ s₁ ⟨rfl, hinv₁, -⟩
  exact create_runs hinv₁ .games _

theorem addGameToCatalog_runs (hs : Inv s) (discovered : DiscoveredGame)
    (metadata : Option Metadata) (uuid : String) :
    contract.Runs (contract.Ends Kept) s (addGameToCatalog discovered metadata uuid) s := by
  unfold addGameToCatalog
  refine Contract.Runs.bind ((call_ensureLoaded_runs hs).mono ?_)
  rintro _ _ s₁ ⟨rfl, hinv₁, -⟩
  refine loaded_runs hinv₁ fun d hd => ?_
  split
  · next existing hfound =>
    exact ends_of_fresh hinv₁ (.inl ⟨d, hd, List.mem_of_find?_eq_some hfound⟩)
  · exact create_runs hinv₁ .games _

/-- The only record that goes is the one that was found. -/
theorem mem_eraseP_or_found {p : Entry → Bool} {l : List Entry} (he : e ∈ l) :
    e ∈ l.eraseP p ∨ l.find? p = some e := by
  induction l with
  | nil => cases he
  | cons x l ih =>
      by_cases hx : p x
      · rw [List.eraseP_cons_of_pos hx, List.find?_cons_of_pos hx]
        rcases List.mem_cons.mp he with rfl | he
        · exact .inr rfl
        · exact .inl he
      · rw [List.eraseP_cons_of_neg hx, List.find?_cons_of_neg hx]
        rcases List.mem_cons.mp he with rfl | he
        · exact .inl List.mem_cons_self
        · rcases ih he with he | he
          · exact .inl (List.mem_cons_of_mem _ he)
          · exact .inr he

theorem deleteGame_runs (hs : Inv s) (gameId : String) :
    contract.Runs (contract.Ends Kept) s (deleteGame gameId) s := by
  unfold deleteGame
  refine Contract.Runs.bind ((call_ensureLoaded_runs hs).mono ?_)
  rintro _ _ s₁ ⟨rfl, hinv₁, -⟩
  refine loaded_runs hinv₁ fun d hd => ?_
  split
  · exact ends_of_fresh hinv₁ trivial
  · next game hfound =>
    refine Contract.runs_state.mpr (Contract.runs_put.mpr ?_)
    have hkeeps : contract.Keeps s₁ (Store.called
        { s₁ with
          storeData := some { d with games := d.games.eraseP (hasText "GameID" gameId) }
          deleted := s₁.deleted ++ [game.ref] }) := by
      refine keeps_called hinv₁ nofun ⟨rfl, rfl, rfl⟩ (fun _ hr => List.mem_append_left _ hr) ?_
      rintro - t e ⟨d', hd', he⟩
      rw [hd] at hd'
      cases hd'
      cases t with
      | users => exact .inl ⟨_, rfl, he⟩
      | games =>
          rcases mem_eraseP_or_found he with he | he
          · exact .inl ⟨_, rfl, he⟩
          · obtain rfl : game = e := Option.some.inj (hfound.symm.trans he)
            exact .inr (List.mem_append_right _ (List.mem_singleton_self _))
    refine Contract.Runs.bind (Contract.Runs.mono ?_
      (call_persist_runs stable_true nofun hkeeps fun _ => trivial))
    rintro _ _ s₂ ⟨rfl, hinv₂, -⟩
    exact ends_of_fresh hinv₂ trivial

/-- An operation that only reads. -/
theorem read_runs {α : Type} (hs : Inv s) (read : StoreData → α) {result : α → Result}
    (hresult : ∀ a s, Kept (result a) s) :
    contract.Runs (contract.Ends Kept) s (do return result (← getter read)) s := by
  refine Contract.Runs.bind ((getter_runs hs read).mono ?_)
  rintro _ a s₁ ⟨rfl, hinv₁, -⟩
  exact ends_of_fresh hinv₁ (hresult a s₁)

theorem code_spec (js : Unicode) (op : Op) : contract.Spec (contract.Ends Kept) (code js op) := by
  intro s hs
  cases op with
  | createUser input uuid => exact createUser_runs js hs input uuid
  | createGame input uuid => exact createGame_runs hs input uuid
  | addGameToCatalog discovered metadata uuid =>
      exact addGameToCatalog_runs hs discovered metadata uuid
  | deleteGame gameId => exact deleteGame_runs hs gameId
  | getUserByUsername username => exact read_runs hs _ fun _ _ => trivial
  | _ => exact read_runs hs _ fun _ _ => trivial

/-! ### Runs -/

theorem Store.Unloaded.inv (h : s.Unloaded) : Inv s where
  unloaded _ := h
  written_le := by rw [h.written]; exact Nat.zero_le _
  writing_lt text htext := by
    rw [h.writing] at htext
    cases htext
  covered t e he := absurd he (not_has_of_unloaded h.storeData)

theorem Store.Inv.inFile (hs : Inv s) (he : s.Has t e) (hpending : s.NothingPending) :
    s.InFile t e.value := by
  obtain ⟨hwriting, hcalls⟩ := hpending
  rcases hs.covered t e he with h | ⟨place, hplace, h⟩
  · exact h.1 hwriting
  · obtain ⟨ticket, rfl, hlt⟩ := hcalls place hplace
    have hle := (h ticket rfl).1
    omega

theorem durable_of_loads_once (js : Unicode) {w : StoreWorld}
    (hw : ((storeSystem js).restrict fun w w' => LoadsOnce w.shared w'.shared).Reachable w) :
    Durable w := by
  have hsound := Contract.reachable (C := contract) stable_kept (fun s hs => hs.inv) (code_spec js)
    (fun s s' hs h => h.keeps hs) hw
  intro op t e hmem hdeleted
  have hkept : w.shared.Has t e ∨ e.ref ∈ w.shared.deleted := hsound.2 _ hmem
  have hhas := hkept.resolve_right hdeleted
  exact ⟨hhas, hsound.1.inFile hhas⟩

def emptyFile : Json := .obj [("users", .arr []), ("games", .arr [])]

/-- A data file without records and nothing loaded. -/
def coldStore : Store where
  storeData := none
  file := .content (some emptyFile)
  seed := none
  tickets := 0
  written := 0
  writing := none
  calls := []
  fresh := 0
  deleted := []
  loads := 0

theorem coldStore_unloaded : coldStore.Unloaded := ⟨rfl, nofun, rfl, rfl, rfl, rfl, rfl⟩

/-- On lower-case texts without blanks. -/
def ascii : Unicode := ⟨id, id⟩

def newGame (title : String) : Op := .createGame (.obj [("title", .str title)]) title

/-- The answer of the system, when it has no choice. -/
def Store.answer (s : Store) : (request : Request) → Option request.Answer
  | .tick => some ()
  | .mkdir => some ()
  | .access .store => some (match s.file with
      | .absent => false
      | _ => true)
  | .access .seed => some s.seed.isSome
  | .readFile .store =>
      match s.file with
      | .content content => some content
      | _ => none
  | .readFile .seed => s.seed
  | .turn ticket => if ticket < s.written then some () else none

/-- The next step of the write whose turn it is. -/
def Store.write (s : Store) : Option Store :=
  match s.writing with
  | some text =>
      some
        { s with
          file := .content (some text)
          writing := none
          written := s.written + 1 }
  | none =>
      if s.written < s.tickets then
        some
          { s with
            writing := some (match s.storeData with
              | some d => d.toJson
              | none => .null)
            file := .torn }
      else none

theorem answers_answer (s : Store) (request : Request) (x : request.Answer)
    (h : s.answer request = some x) : answers s request x := by
  unfold Store.answer at h
  split at h
  · trivial
  · trivial
  · cases h
    rfl
  · cases h
    rfl
  · split at h
    · next hfile =>
      cases h
      simp [answers, hfile]
    · cases h
  · exact h
  · split at h
    · assumption
    · cases h

theorem writes_write (s s' : Store) (h : s.write = some s') : Writes s s' := by
  unfold Store.write at h
  split at h
  · next hwriting =>
    cases h
    exact .finish hwriting
  · next hwriting =>
    split at h
    · next hlt =>
      cases h
      exact .start hwriting hlt
    · cases h

/-- What the steps make of a store that is not loaded. -/
def storeAfter (check : StoreWorld → StoreWorld → Prop) [DecidableRel check]
    (moves : List (Move Op)) : StoreWorld :=
  World.moves Store.answer (code ascii) Store.write check moves ⟨coldStore, []⟩

theorem reachable_storeAfter (check : StoreWorld → StoreWorld → Prop) [DecidableRel check]
    (moves : List (Move Op)) : ((storeSystem ascii).restrict check).Reachable (storeAfter check moves) :=
  World.reachable_moves answers_answer writes_write (fun _ _ hcheck => hcheck) moves
    (.start ⟨coldStore_unloaded, rfl⟩)

instance (s s' : Store) : Decidable (LoadsOnce s s') :=
  inferInstanceAs (Decidable (s.storeData.isSome → s'.loads = s.loads))

/-- The first operation has loaded the store when the second one comes.  From then on they take
turns, and the first write begins before the second game is there. -/
def twoGames : List (Move Op) :=
  List.flatten
    [[.start (newGame "a")], Move.turns 0 5, [.start (newGame "b")], Move.turns 1 1, Move.turns 0 1,
      Move.turns 1 1, Move.turns 0 1, [.ambient], Move.turns 1 1, [.ambient], Move.turns 0 2,
      [.ambient, .ambient], Move.turns 1 2]

set_option maxRecDepth 1000 in
/-- Both games are there, and the one write after the other is done. -/
theorem durable_of_loads_once_twoGames : ∃ w, Durable w ∧
    (∃ e, (newGame "a", Task.resolved (.created .games e)) ∈ w.tasks ∧ w.shared.Has .games e) ∧
    (∃ e, (newGame "b", Task.resolved (.created .games e)) ∈ w.tasks ∧ w.shared.Has .games e) ∧
    w.shared.written = 2 := by
  have hdurable := durable_of_loads_once ascii
    (reachable_storeAfter (fun w w' => LoadsOnce w.shared w'.shared) twoGames)
  obtain ⟨a, hcreated, hdeleted⟩ : ∃ e, (newGame "a", Task.resolved (.created .games e)) ∈
      (storeAfter (fun w w' => LoadsOnce w.shared w'.shared) twoGames).tasks ∧
      e.ref ∉ (storeAfter (fun w w' => LoadsOnce w.shared w'.shared) twoGames).shared.deleted :=
    ⟨_, List.mem_cons_self, nofun⟩
  obtain ⟨b, hcreated', hdeleted'⟩ : ∃ e, (newGame "b", Task.resolved (.created .games e)) ∈
      (storeAfter (fun w w' => LoadsOnce w.shared w'.shared) twoGames).tasks ∧
      e.ref ∉ (storeAfter (fun w w' => LoadsOnce w.shared w'.shared) twoGames).shared.deleted :=
    ⟨_, List.mem_cons_of_mem _ List.mem_cons_self, nofun⟩
  exact ⟨_, hdurable, ⟨a, hcreated, (hdurable _ _ a hcreated hdeleted).1⟩,
    ⟨b, hcreated', (hdurable _ _ b hcreated' hdeleted').1⟩, rfl⟩

/-- Two operations find the store unloaded and read the same file.  The first one goes on to its
end, then the second one assigns what it has read. -/
def twoLoads : List (Move Op) :=
  List.flatten
    [[.start (newGame "a"), .start (newGame "b")], Move.turns 0 4, Move.turns 1 4,
      [.answer 0, .answer 1], Move.turns 0 3, [.ambient, .ambient], Move.turns 0 2, [.resume 1]]

set_option maxRecDepth 1000 in
/-- Two operations load the store; the later one drops what the other has created. -/
theorem cold_loads_not_durable : ∃ w, (storeSystem ascii).Reachable w ∧ ¬ Durable w := by
  refine ⟨_, (reachable_storeAfter (fun _ _ => True) twoLoads).of_restrict, fun hdurable => ?_⟩
  obtain ⟨⟨d, hd, hmem⟩, -⟩ := hdurable _ _ _ List.mem_cons_self nofun
  cases hd
  cases hmem

end Stratus.Backend
