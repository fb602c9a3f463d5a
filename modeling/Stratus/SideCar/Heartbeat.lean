import Stratus.Lib.Ledger
import Stratus.SideCar.Catalog

/-! `sidecar_heartbeat`: the scan of the two directories, which share the array of ids, its
index, the variable `dir` and `errno`.  A call of the library that succeeds leaves `errno` as it
is, and an entry stays in the buffer of its stream until the stream is closed. -/
namespace Stratus.SideCar

open Stratus.Lib

namespace Heartbeat

/-- The two directories, and the streams that are opened on them. -/
inductive Dir where
  | game
  | steam
deriving DecidableEq

/-- What `readdir` returns: the names in their order, and then the end or an error. -/
structure Stream where
  entries : List CText
  fails : Bool

/-- What the calls of a heartbeat return: `opendir` a stream or `NULL`, and the others whether
they succeed, or what `api_send_heartbeat` returns. -/
structure World where
  gameDir : Option Stream
  steamDir : Option Stream
  gethostname : Bool
  sysinfo : Bool
  statfs : Bool
  apiSendHeartbeat : Int

/-- What an element of `games` points to: an entry of the game directory in the buffer of its
stream, or the `game_id` of one turn of the second loop. -/
inductive Name where
  | entry (name : CText)
  | gameId (id : CText)

def maxGames : Nat := 64

/-- The variables of the scan.  `games` holds the elements before `i`, and `writes` all places of
the array that are written, also those past its end. -/
structure Scan where
  games : List Name
  writes : List Nat
  catalog : Catalog
  errno : Bool
  acts : List (Act Dir)

def Scan.start (catalog : Catalog) : Scan := ⟨[], [], catalog, false, []⟩

def Scan.act (s : Scan) (act : Act Dir) : Scan := { s with acts := s.acts ++ [act] }

/-- `games[i++] = name`. -/
def Scan.store (s : Scan) (name : Name) : Scan :=
  { s with games := s.games ++ [name], writes := s.writes ++ [s.games.length] }

/-- `games[i] = NULL`. -/
def Scan.terminate (s : Scan) : Scan := { s with writes := s.writes ++ [s.games.length] }

def hidden (name : CText) : Bool := name.bytes.head? = some 46

/-- One of the loops: an entry is read only while there is room for it. -/
def scanDir (dir : Dir) (found : CText → Scan → Scan) (fails : Bool) : List CText → Scan → Scan
  | [], s =>
      if s.games.length < maxGames then { s.act (.use dir) with errno := s.errno || fails } else s
  | ent :: rest, s =>
      if s.games.length < maxGames then
        scanDir dir found fails rest
          (if hidden ent then s.act (.use dir) else found ent (s.act (.use dir)))
      else s

def foundGame (ent : CText) (s : Scan) : Scan := s.store (.entry ent)

/-- The text of `game_id` for a place in the array. -/
def gameId (i : Nat) : CText := .ofBytes (snprintf 37 (utf8 "steam-" ++ decimal i))

def Scan.register (s : Scan) (id ent : CText) : Scan :=
  { s with catalog := (s.catalog.steamRegisterGame id ent .steam 0 (some ent)).1 }

def foundSteam (ent : CText) (s : Scan) : Scan :=
  let id := gameId s.games.length
  (s.register id ent).store (.gameId id)

theorem acts_foundGame (ent : CText) (s : Scan) : (foundGame ent s).acts = s.acts := rfl

theorem acts_foundSteam (ent : CText) (s : Scan) : (foundSteam ent s).acts = s.acts := rfl

/-- What is used where the name is read. -/
def Name.use : Name → Option (Act Dir)
  | .entry _ => some (.use .game)
  | .gameId _ => none

/-- `api_send_heartbeat` reads every name. -/
def Scan.send (s : Scan) : Scan := { s with acts := s.acts ++ s.games.filterMap Name.use }

/-- `closedir(dir)`; nothing is closed where `dir` is `NULL`. -/
def Scan.closedir (s : Scan) : Option Dir → Scan
  | some dir => s.act (.release dir)
  | none => s

/-- How a heartbeat ends: with what it did, the ids in the message if one is sent, and the
result. -/
structure Result where
  scan : Scan
  sent : Option (List Name)
  returned : Int

/-- The variables before the second loop. -/
def Scan.openSteam (s : Scan) : Scan := { s.act (.acquire .steam) with errno := false }

/-- The second scan, with what `dir` is after it. -/
def scanSteam (s : Scan) : Option Stream → Scan × Option Dir
  | none => ({ s with errno := true }, none)
  | some steam =>
      let s := s.openSteam
      ((scanDir .steam foundSteam steam.fails steam.entries s).closedir (some .steam), some .steam)

/-- The rest of the function after both scans. -/
def finish (world : World) (s : Scan) (dir : Option Dir) : Result :=
  if s.errno then ⟨s.closedir dir, none, -1⟩
  else
    let s := s.terminate
    if world.gethostname && world.sysinfo && world.statfs then
      ⟨s.send.closedir dir, some s.games, world.apiSendHeartbeat⟩
    else ⟨s.closedir dir, none, -1⟩

def sidecarHeartbeat (world : World) (catalog : Catalog) : Result :=
  match world.gameDir with
  | none => ⟨.start catalog, none, -1⟩
  | some game =>
      let s := (Scan.start catalog).act (.acquire .game)
      let s := scanDir .game foundGame game.fails game.entries s
      if s.errno then ⟨s.closedir (some .game), none, -1⟩
      else
        let (s, dir) := scanSteam s world.steamDir
        finish world s dir

/-! ### The loops -/

section Loop

variable {dir : Dir} {found : CText → Scan → Scan} {fails : Bool}

/-- What every turn of a loop keeps holds after it. -/
theorem scanDir_keeps (holds : Scan → Prop) (huse : ∀ s, holds s → holds (s.act (.use dir)))
    (hfound : ∀ ent s, s.games.length < maxGames → holds s → holds (found ent s))
    (hend : ∀ s, holds s → holds { s with errno := s.errno || fails }) (entries : List CText) {s : Scan}
    (hs : holds s) : holds (scanDir dir found fails entries s) := by
  induction entries generalizing s with
  | nil =>
      rw [scanDir]
      split
      · exact hend _ (huse s hs)
      · exact hs
  | cons ent rest ih =>
      rw [scanDir]
      split
      · next hroom =>
        apply ih
        split
        · exact huse s hs
        · exact hfound ent _ hroom (huse s hs)
      · exact hs

def visible (entries : List CText) : List CText := entries.filter fun ent => !hidden ent

/-- The elements for these entries from a place on. -/
def namesFrom (name : CText → Nat → Name) (i : Nat) : List CText → List Name
  | [] => []
  | ent :: rest => name ent i :: namesFrom name (i + 1) rest

theorem length_namesFrom (name : CText → Nat → Name) (i : Nat) (l : List CText) :
    (namesFrom name i l).length = l.length := by
  induction l generalizing i with
  | nil => rfl
  | cons ent rest ih => simp [namesFrom, ih]

/-- What is done for these entries from a place on. -/
def visit {α : Type} (step : CText → Nat → α → α) (i : Nat) : List CText → α → α
  | [], a => a
  | ent :: rest, a => visit step (i + 1) rest (step ent i a)

/-- A loop goes through the entries that are not hidden, as long as there is room. -/
theorem scanDir_visits {α : Type} (what : Scan → α) (step : CText → Nat → α → α)
    (huse : ∀ s, what (s.act (.use dir)) = what s)
    (hend : ∀ s, what { s with errno := s.errno || fails } = what s)
    (hplace : ∀ ent s, (found ent s).games.length = s.games.length + 1)
    (hfound : ∀ ent s, what (found ent s) = step ent s.games.length (what s))
    (entries : List CText) (s : Scan) :
    what (scanDir dir found fails entries s) =
      visit step s.games.length ((visible entries).take (maxGames - s.games.length)) (what s) := by
  induction entries generalizing s with
  | nil =>
      have hnil : (visible []).take (maxGames - s.games.length) = [] := List.take_nil
      rw [scanDir, hnil, visit]
      split
      · exact (hend (s.act (.use dir))).trans (huse s)
      · rfl
  | cons ent rest ih =>
      rw [scanDir]
      split
      · next hroom =>
        rw [ih]
        have hused : (s.act (.use dir)).games.length = s.games.length := rfl
        by_cases hhidden : hidden ent
        · simp only [visible, hhidden, if_true, hused, huse, List.filter_cons, Bool.not_true,
            Bool.false_eq_true, if_false]
        · obtain ⟨room, hroom'⟩ : ∃ room, maxGames - s.games.length = room + 1 :=
            ⟨maxGames - s.games.length - 1, by omega⟩
          have hrest : maxGames - (s.games.length + 1) = room := by omega
          simp [visible, hhidden, hplace, hfound, huse, hused, hroom', hrest, visit]
      · next hroom =>
        have hnone : maxGames - s.games.length = 0 := by omega
        simp [hnone, visit]

theorem visit_names (name : CText → Nat → Name) (i : Nat) (l : List CText) (names : List Name) :
    visit (fun ent i names => names ++ [name ent i]) i l names = names ++ namesFrom name i l := by
  induction l generalizing i names with
  | nil => simp [visit, namesFrom]
  | cons ent rest ih => simp [visit, namesFrom, ih]

/-- An element for each entry. -/
theorem games_scanDir {name : CText → Nat → Name}
    (hfound : ∀ ent s, (found ent s).games = s.games ++ [name ent s.games.length])
    (entries : List CText) (s : Scan) :
    (scanDir dir found fails entries s).games = s.games ++
      namesFrom name s.games.length ((visible entries).take (maxGames - s.games.length)) := by
  rw [← visit_names]
  refine scanDir_visits Scan.games _ (fun _ => rfl) (fun _ => rfl) (fun ent s => ?_) hfound entries s
  rw [hfound, List.length_append, List.length_singleton]

/-- The calls of `steam_register_game` for these entries from a place on. -/
def registrations (i : Nat) : List CText → List Catalog.Registration
  | [] => []
  | ent :: rest => ⟨gameId i, ent, .steam, 0, some ent⟩ :: registrations (i + 1) rest

theorem length_registrations (i : Nat) (l : List CText) : (registrations i l).length = l.length := by
  induction l generalizing i with
  | nil => rfl
  | cons ent rest ih => simp [registrations, ih]

theorem visit_registrations (i : Nat) (l : List CText) (catalog : Catalog) :
    visit (fun ent i (catalog : Catalog) =>
        (catalog.steamRegisterGame (gameId i) ent .steam 0 (some ent)).1) i l catalog =
      (Catalog.registerAll (registrations i l) catalog).1 := by
  induction l generalizing i catalog with
  | nil => rfl
  | cons ent rest ih => exact ih (i + 1) _

theorem catalog_scanDir_steam (fails : Bool) (entries : List CText) (s : Scan) :
    (scanDir .steam foundSteam fails entries s).catalog =
      (Catalog.registerAll (registrations s.games.length
        ((visible entries).take (maxGames - s.games.length))) s.catalog).1 := by
  rw [← visit_registrations]
  refine scanDir_visits Scan.catalog _ (fun _ => rfl) (fun _ => rfl) (fun ent s => ?_)
    (fun _ _ => rfl) entries s
  exact List.length_append

end Loop

/-- The places that are written are those of the elements. -/
def Scan.Dense (s : Scan) : Prop :=
  s.writes = List.range s.games.length ∧ s.games.length ≤ maxGames

theorem Scan.Dense.store {s : Scan} (h : s.Dense) (hroom : s.games.length < maxGames) (name : Name) :
    (s.store name).Dense := by
  constructor
  · simp [Scan.store, h.1, List.range_succ]
  · simpa [Scan.store, Nat.succ_le_iff] using hroom

theorem scanDir_game_dense (fails : Bool) (entries : List CText) {s : Scan} (hs : s.Dense) :
    (scanDir .game foundGame fails entries s).Dense :=
  scanDir_keeps Scan.Dense (fun _ h => h) (fun _ _ hroom h => h.store hroom _) (fun _ h => h) entries hs

theorem scanDir_steam_dense (fails : Bool) (entries : List CText) {s : Scan} (hs : s.Dense) :
    (scanDir .steam foundSteam fails entries s).Dense :=
  scanDir_keeps Scan.Dense (fun _ h => h)
    (fun ent s hroom h => Scan.Dense.store (s := s.register (gameId s.games.length) ent) h hroom _)
    (fun _ h => h) entries hs

/-- The stream of the game directory has been opened, and has not been closed. -/
structure Scan.Holding (s : Scan) : Prop where
  opened : s.acts.count (.acquire .game) = 1
  kept : s.acts.count (.release .game) = 0

theorem Scan.Holding.act {s : Scan} (h : s.Holding) {act : Act Dir} (hopen : act ≠ .acquire .game)
    (hclose : act ≠ .release .game) : (s.act act).Holding where
  opened := by simp [Scan.act, List.count_append, h.opened, hopen]
  kept := by simp [Scan.act, List.count_append, h.kept, hclose]

/-- A loop opens and closes nothing. -/
theorem Scan.Holding.scanDir {dir : Dir} {found : CText → Scan → Scan} {fails : Bool}
    (hfound : ∀ ent s, (found ent s).acts = s.acts) (entries : List CText) {s : Scan} (hs : s.Holding) :
    (scanDir dir found fails entries s).Holding :=
  scanDir_keeps Scan.Holding (fun _ h => h.act nofun nofun)
    (fun ent s _ h => ⟨hfound ent s ▸ h.opened, hfound ent s ▸ h.kept⟩) (fun _ h => ⟨h.opened, h.kept⟩)
    entries hs

theorem Scan.Holding.closedir {s : Scan} (h : s.Holding) {dir : Option Dir} (hdir : dir ≠ some .game) :
    (s.closedir dir).Holding := by
  cases dir with
  | none => exact h
  | some dir =>
      refine h.act nofun fun heq => hdir ?_
      cases heq
      rfl

theorem Scan.Holding.send {s : Scan} (h : s.Holding) : s.send.Holding := by
  have hnone (act : Act Dir) (hact : act ≠ .use .game) : (s.games.filterMap Name.use).count act = 0 := by
    refine List.count_eq_zero.mpr fun hmem => ?_
    obtain ⟨name, -, hname⟩ := List.mem_filterMap.mp hmem
    cases name with
    | entry _ => exact hact (Option.some.inj hname).symm
    | gameId _ => cases hname
  constructor
  · rw [Scan.send, List.count_append, h.opened, hnone (.acquire .game) nofun]
  · rw [Scan.send, List.count_append, h.kept, hnone (.release .game) nofun]

/-- After the second scan `dir` is no longer the game directory. -/
theorem Scan.Holding.scanSteam {s : Scan} (h : s.Holding) (steam : Option Stream) :
    (scanSteam s steam).1.Holding ∧ (Heartbeat.scanSteam s steam).2 ≠ some .game := by
  cases steam with
  | none => exact ⟨⟨h.opened, h.kept⟩, nofun⟩
  | some steam =>
      have hopen : s.openSteam.Holding :=
        have hact : (s.act (.acquire .steam)).Holding := h.act nofun nofun
        ⟨hact.opened, hact.kept⟩
      have hscan : (Heartbeat.scanDir .steam foundSteam steam.fails steam.entries s.openSteam).Holding :=
        Scan.Holding.scanDir acts_foundSteam steam.entries hopen
      refine ⟨hscan.act nofun nofun, ?_⟩
      exact fun heq => absurd (Option.some.inj heq) nofun

theorem Scan.Holding.finish {s : Scan} (h : s.Holding) (world : World) {dir : Option Dir}
    (hdir : dir ≠ some .game) : (finish world s dir).scan.Holding := by
  have hterminate : s.terminate.Holding := ⟨h.opened, h.kept⟩
  rw [Heartbeat.finish]
  split
  · exact h.closedir hdir
  · split
    · exact hterminate.send.closedir hdir
    · exact hterminate.closedir hdir

/-- Whatever is closed later, the game directory is not. -/
theorem Scan.Holding.not_settles {s : Scan} (h : s.Holding) : ¬ Settles [] s.acts := by
  intro hsettles
  have hcount := count_of_settle hsettles .game
  rw [h.opened, h.kept] at hcount
  simp at hcount

/-! ### What is promised of a heartbeat -/

/-- A world with these directories in which nothing else fails. -/
def working (game : List CText) (steam : Option (List CText)) (sent : Int) : World where
  gameDir := some ⟨game, false⟩
  steamDir := steam.map fun entries => ⟨entries, false⟩
  gethostname := true
  sysinfo := true
  statfs := true
  apiSendHeartbeat := sent

/-- Nothing is written past the array. -/
def Result.Inside (result : Result) : Prop := ∀ place ∈ result.scan.writes, place < maxGames

/-- The heartbeat is sent, and its result returned. -/
def Result.Sends (result : Result) (sent : Int) : Prop := result.sent.isSome ∧ result.returned = sent

structure Result.Safe (result : Result) (sent : Int) : Prop where
  inside : result.Inside
  closes : Settles [] result.scan.acts
  sends : result.Sends sent

variable (game : List CText) (steam : Option (List CText)) (sent : Int) (catalog : Catalog)

/-- The variables after the first loop. -/
def scanned : Scan :=
  scanDir .game foundGame false game ((Scan.start catalog).act (.acquire .game))

theorem errno_scanDir {dir : Dir} {found : CText → Scan → Scan}
    (hfound : ∀ ent s, (found ent s).errno = s.errno) (entries : List CText) {s : Scan}
    (hs : s.errno = false) : (scanDir dir found false entries s).errno = false := by
  refine scanDir_keeps (fun s => s.errno = false) ?_ ?_ ?_ entries hs
  · exact fun _ h => h
  · exact fun ent s _ h => (hfound ent s).trans h
  · intro s h
    rw [h, Bool.or_false]

theorem errno_scanned : (scanned game catalog).errno = false := by
  rw [scanned]
  apply errno_scanDir
  · exact fun _ _ => rfl
  · rfl

/-- The variables after the second one. -/
def scannedBoth (entries : List CText) : Scan :=
  scanDir .steam foundSteam false entries (scanned game catalog).openSteam

theorem errno_scannedBoth (entries : List CText) : (scannedBoth game catalog entries).errno = false := by
  rw [scannedBoth]
  apply errno_scanDir
  · exact fun _ _ => rfl
  · rfl

theorem sidecarHeartbeat_working :
    sidecarHeartbeat (working game steam sent) catalog =
      finish (working game steam sent) (scanSteam (scanned game catalog) (working game steam sent).steamDir).1
        (scanSteam (scanned game catalog) (working game steam sent).steamDir).2 := by
  have herrno := errno_scanned game catalog
  rw [scanned] at herrno
  simp only [sidecarHeartbeat, working, herrno]
  rfl

/-- `opendir` leaves its error in `errno`, which is tested once more after the second scan. -/
theorem heartbeat_none :
    sidecarHeartbeat (working game none sent) catalog =
      ⟨{ scanned game catalog with errno := true }, none, -1⟩ :=
  sidecarHeartbeat_working game none sent catalog

/-- Where both directories exist the heartbeat is sent, and the stream of the second one is closed
twice. -/
theorem heartbeat_some (entries : List CText) :
    sidecarHeartbeat (working game (some entries) sent) catalog =
      ⟨((scannedBoth game catalog entries).act (.release .steam)).terminate.send.act (.release .steam),
        some (scannedBoth game catalog entries).games, sent⟩ := by
  have herrno : ((scannedBoth game catalog entries).act (.release .steam)).errno = false :=
    errno_scannedBoth game catalog entries
  have hfinish : finish (working game (some entries) sent)
      ((scannedBoth game catalog entries).act (.release .steam)) (some .steam) =
        ⟨((scannedBoth game catalog entries).act (.release .steam)).terminate.send.act (.release .steam),
          some (scannedBoth game catalog entries).games, sent⟩ := by
    rw [finish, herrno]
    rfl
  rw [sidecarHeartbeat_working]
  exact hfinish

theorem scanned_dense : (scanned game catalog).Dense :=
  scanDir_game_dense false game ⟨rfl, Nat.zero_le _⟩

theorem scannedBoth_dense (entries : List CText) : (scannedBoth game catalog entries).Dense :=
  scanDir_steam_dense false entries (scanned_dense game catalog)

theorem games_scanned :
    (scanned game catalog).games = namesFrom (fun ent _ => .entry ent) 0 ((visible game).take maxGames) :=
  games_scanDir (fun _ _ => rfl) game _

theorem catalog_scanned : (scanned game catalog).catalog = catalog := by
  rw [scanned]
  refine scanDir_keeps (fun s => s.catalog = catalog) ?_ ?_ ?_ game ?_
  · exact fun _ h => h
  · exact fun _ _ _ h => h
  · exact fun _ h => h
  · rfl

theorem catalog_scannedBoth (entries : List CText) :
    (scannedBoth game catalog entries).catalog =
      (Catalog.registerAll (registrations (scanned game catalog).games.length
        ((visible entries).take (maxGames - (scanned game catalog).games.length))) catalog).1 := by
  have hscan := catalog_scanDir_steam false entries (scanned game catalog).openSteam
  rw [show (scanned game catalog).openSteam.catalog = catalog from catalog_scanned game catalog] at hscan
  exact hscan

theorem games_scannedBoth (entries : List CText) :
    (scannedBoth game catalog entries).games = (scanned game catalog).games ++
      namesFrom (fun _ i => .gameId (gameId i)) (scanned game catalog).games.length
        ((visible entries).take (maxGames - (scanned game catalog).games.length)) :=
  games_scanDir (fun _ _ => rfl) entries _

theorem length_scannedBoth (entries : List CText) :
    (scannedBoth game catalog entries).games.length =
      min maxGames ((visible game).length + (visible entries).length) := by
  rw [games_scannedBoth, List.length_append, length_namesFrom, List.length_take, games_scanned,
    length_namesFrom, List.length_take]
  omega

/-- The terminator is in the array exactly when the directories do not fill it. -/
theorem heartbeat_inside_iff :
    (sidecarHeartbeat (working game steam sent) catalog).Inside ↔
      ∀ entries ∈ steam, (visible game).length + (visible entries).length < maxGames := by
  cases steam with
  | none =>
      rw [heartbeat_none]
      refine iff_of_true (fun place hplace => ?_) nofun
      obtain ⟨hwrites, hle⟩ := scanned_dense game catalog
      have hlt : place < (scanned game catalog).games.length := by
        rw [← List.mem_range, ← hwrites]
        exact hplace
      exact Nat.lt_of_lt_of_le hlt hle
  | some entries =>
      rw [heartbeat_some]
      obtain ⟨hwrites, hle⟩ := scannedBoth_dense game catalog entries
      have hlength := length_scannedBoth game catalog entries
      have hall : (((scannedBoth game catalog entries).act (.release .steam)).terminate.send.act
          (.release .steam)).writes = List.range ((scannedBoth game catalog entries).games.length + 1) := by
        simp [Scan.act, Scan.terminate, Scan.send, hwrites, List.range_succ]
      simp only [Result.Inside, hall, List.mem_range, Option.mem_some_iff, forall_eq']
      constructor
      · intro hinside
        have hlast := hinside _ (Nat.lt_succ_self _)
        omega
      · intro hroom place hplace
        omega

/-- A missing directory of Steam is an error after all. -/
theorem heartbeat_sends_iff :
    (sidecarHeartbeat (working game steam sent) catalog).Sends sent ↔ steam.isSome := by
  cases steam with
  | none =>
      rw [heartbeat_none]
      exact iff_of_false (fun hsends => absurd hsends.1 nofun) nofun
  | some entries =>
      rw [heartbeat_some]
      exact iff_of_true ⟨rfl, rfl⟩ rfl

/-- No heartbeat closes the directories as it should. -/
theorem heartbeat_not_safe : ¬ (sidecarHeartbeat (working game steam sent) catalog).Safe sent := by
  intro hsafe
  have hopen : ((Scan.start catalog).act (.acquire .game)).Holding := ⟨rfl, rfl⟩
  have hscanned : (scanned game catalog).Holding := hopen.scanDir acts_foundGame game
  obtain ⟨hsteam, hdir⟩ := hscanned.scanSteam (working game steam sent).steamDir
  have hcloses := hsafe.closes
  rw [sidecarHeartbeat_working] at hcloses
  exact (hsteam.finish _ hdir).not_settles hcloses

/-- Two installed games, and no directory of Steam. -/
theorem heartbeat_missing_steam :
    ¬ (sidecarHeartbeat (working [.ofBytes [46], .ofBytes [46, 46], .ofBytes [97], .ofBytes [98]] none 0)
      .initial).Safe 0 :=
  fun h => absurd h.sends (by rw [heartbeat_none]; exact fun hsends => absurd hsends.1 nofun)

end Heartbeat

end Stratus.SideCar
