import Stratus.Backend.InstalledGames
import Stratus.Lib.Double
import Mathlib.Data.List.Nodup

/-! `getDownloadStatus` of `dockerTrigger.ts`: how far a download has come, from the files it leaves. -/
namespace Stratus.Backend.Download

open Stratus.Lib Stratus.Backend.Manifest

/-- What the status is made of. -/
structure Disk where
  /-- What is in `GAMES_FILE`, if it can be read and parsed. -/
  games : Option (List JsNumber)
  steamApps : Directory
  logs : Directory

/-- `State.Status` and `State.Error` of the container. -/
structure Inspect where
  status : String
  error : Option String

structure DownloadStatus where
  downloading : Bool
  appids : List JsNumber
  completed : List JsNumber
  failed : List JsNumber
  progress : Int
  error : Option String
deriving DecidableEq

def getQueuedAppIds (disk : Disk) : List JsNumber := disk.games.getD []

def errorFile (numberText : JsNumber → Text) (appid : JsNumber) : Text :=
  "steamcmd_".toList ++ numberText appid ++ "_error.log".toList

def checkFailedGames (numberText : JsNumber → Text) (logs : Directory) (appids : List JsNumber) :
    List JsNumber :=
  appids.filter fun appid => logs.names.contains (errorFile numberText appid)

/-- `Math.round((done / total) * 100)`. -/
def percentage (finished total : Nat) : Int :=
  Double.mathRound (Double.rounded (Double.rounded (finished / total) * 100))

/-- `inspect` is what `getContainerInspect` resolves to. -/
def getDownloadStatus (numberText : JsNumber → Text) (disk : Disk) (inspect : Option Inspect) :
    DownloadStatus :=
  let appids := getQueuedAppIds disk
  if appids.length = 0 then
    { downloading := false, appids := [], completed := [], failed := [], progress := 0, error := none }
  else
    match inspect with
    | none =>
        { downloading := false, appids := appids, completed := [], failed := [], progress := 0, error := none }
    | some inspect =>
        let completed := checkCompletedGames numberText disk.steamApps appids
        let failed := checkFailedGames numberText disk.logs appids
        if inspect.status = "exited" ∨ inspect.status = "dead" then
          { downloading := false, appids := appids, completed := completed, failed := failed, progress := 100
            error := inspect.error.filter fun error => error ≠ "" }
        else
          let total := appids.length
          let finished := completed.length + failed.length
          { downloading := inspect.status = "running", appids := appids, completed := completed, failed := failed
            progress := if 0 < total then percentage finished total else 0
            error := none }

/-! ### What is complete and what has failed -/

section

variable (numberText : JsNumber → Text)

/-- The manifest of the game says that it is there. -/
def Complete (steamApps : Directory) (appid : JsNumber) : Prop :=
  manifestName numberText appid ∈ steamApps.names ∧
    ∃ content, steamApps.read (manifestName numberText appid) = some content ∧ Assigned content

def Failed (logs : Directory) (appid : JsNumber) : Prop := errorFile numberText appid ∈ logs.names

theorem complete_iff {steamApps : Directory} {appid : JsNumber} :
    (decide (manifestName numberText appid ∈ steamApps.names) &&
      match steamApps.read (manifestName numberText appid) with
      | some content => stateFlagsPattern.test content || appStatePattern.test content
      | none => false) = true ↔ Complete numberText steamApps appid := by
  unfold Complete
  rw [Bool.and_eq_true, decide_eq_true_eq]
  refine and_congr_right fun _ => ?_
  cases steamApps.read (manifestName numberText appid) with
  | none => exact ⟨nofun, fun h => nomatch h.choose_spec.1⟩
  | some content =>
      refine completed_iff.trans ⟨fun h => ⟨content, rfl, h⟩, ?_⟩
      rintro ⟨_, ⟨⟩, h⟩
      exact h

theorem mem_checkCompletedGames {steamApps : Directory} {appids : List JsNumber} {appid : JsNumber} :
    appid ∈ checkCompletedGames numberText steamApps appids ↔
      appid ∈ appids ∧ Complete numberText steamApps appid := by
  exact List.mem_filter.trans (and_congr_right fun _ => complete_iff numberText)

theorem mem_checkFailedGames {logs : Directory} {appids : List JsNumber} {appid : JsNumber} :
    appid ∈ checkFailedGames numberText logs appids ↔ appid ∈ appids ∧ Failed numberText logs appid := by
  unfold checkFailedGames Failed
  rw [List.mem_filter, List.contains_iff_mem]

theorem completed_sublist (steamApps : Directory) (appids : List JsNumber) :
    (checkCompletedGames numberText steamApps appids).Sublist appids :=
  List.filter_sublist

theorem failed_sublist (logs : Directory) (appids : List JsNumber) :
    (checkFailedGames numberText logs appids).Sublist appids :=
  List.filter_sublist

theorem disjoint_iff {disk : Disk} {appids : List JsNumber} :
    (checkCompletedGames numberText disk.steamApps appids).Disjoint
        (checkFailedGames numberText disk.logs appids) ↔
      ∀ appid ∈ appids, ¬ (Complete numberText disk.steamApps appid ∧ Failed numberText disk.logs appid) := by
  constructor
  · rintro h appid hmem ⟨hcomplete, hfailed⟩
    exact h ((mem_checkCompletedGames numberText).mpr ⟨hmem, hcomplete⟩)
      ((mem_checkFailedGames numberText).mpr ⟨hmem, hfailed⟩)
  · intro h appid hcompleted hfailed
    obtain ⟨hmem, hcomplete⟩ := (mem_checkCompletedGames numberText).mp hcompleted
    exact h appid hmem ⟨hcomplete, ((mem_checkFailedGames numberText).mp hfailed).2⟩

/-- More of the manifests are complete. -/
def FurtherComplete (appids : List JsNumber) (steamApps steamApps' : Directory) : Prop :=
  ∀ appid ∈ appids, Complete numberText steamApps appid → Complete numberText steamApps' appid

theorem completed_mono {steamApps steamApps' : Directory} {appids : List JsNumber}
    (h : FurtherComplete numberText appids steamApps steamApps') :
    (checkCompletedGames numberText steamApps appids).length ≤
      (checkCompletedGames numberText steamApps' appids).length := by
  unfold checkCompletedGames
  rw [← List.countP_eq_length_filter, ← List.countP_eq_length_filter]
  refine List.countP_mono_left fun appid hmem hcomplete => ?_
  exact (complete_iff numberText).mpr (h appid hmem ((complete_iff numberText).mp hcomplete))

end

/-! ### Percentages -/

theorem percentage_mono {finished finished' : Nat} (total : Nat) (h : finished ≤ finished') :
    percentage finished total ≤ percentage finished' total := by
  have hnonneg : (0 : Rat) ≤ finished / total := div_nonneg (Nat.cast_nonneg _) (Nat.cast_nonneg _)
  have hle : (finished : Rat) / total ≤ finished' / total :=
    div_le_div_of_nonneg_right (Nat.cast_le.mpr h) (Nat.cast_nonneg _)
  refine Double.mathRound_mono (Double.rounded_mono ?_ ?_)
  · exact mul_nonneg (Double.rounded_nonneg hnonneg) (by norm_num)
  · exact mul_le_mul_of_nonneg_right (Double.rounded_mono hnonneg hle) (by norm_num)

theorem percentage_zero (total : Nat) : percentage 0 total = 0 := by
  unfold percentage
  rw [Nat.cast_zero, zero_div, Double.rounded_zero, zero_mul, Double.rounded_zero]
  exact Double.mathRound_intCast 0

/-- So many times the total. -/
theorem percentage_mul {k total : Nat} (htotal : 0 < total) (hk : k * 100 < 2 ^ 53) :
    percentage (k * total) total = (k * 100 : Nat) := by
  have hquotient : ((k * total : Nat) : Rat) / total = k := by
    rw [Nat.cast_mul, mul_div_cancel_right₀ _ (Nat.cast_ne_zero.mpr htotal.ne')]
  have htimes : (k : Rat) * 100 = (k * 100 : Nat) := by
    rw [Nat.cast_mul, Nat.cast_ofNat]
  unfold percentage
  rw [hquotient, Double.rounded_natCast (by omega), htimes, Double.rounded_natCast hk, ← Int.cast_natCast]
  exact Double.mathRound_intCast _

theorem percentage_self {total : Nat} (h : 0 < total) : percentage total total = 100 := by
  have hmul := percentage_mul h (by decide : 1 * 100 < 2 ^ 53)
  rwa [Nat.one_mul] at hmul

/-! ### The status -/

/-- What a status says about the games of the queue. -/
structure Consistent (appids : List JsNumber) (status : DownloadStatus) : Prop where
  completed : status.completed.Sublist appids
  failed : status.failed.Sublist appids
  disjoint : status.completed.Disjoint status.failed
  nonneg : 0 ≤ status.progress
  atMost : status.progress ≤ 100

section

variable (numberText : JsNumber → Text) (disk : Disk)

/-- The lists, when the container is there. -/
theorem lists_getDownloadStatus (inspect : Inspect) :
    (getDownloadStatus numberText disk (some inspect)).completed =
        checkCompletedGames numberText disk.steamApps (getQueuedAppIds disk) ∧
      (getDownloadStatus numberText disk (some inspect)).failed =
        checkFailedGames numberText disk.logs (getQueuedAppIds disk) := by
  unfold getDownloadStatus
  dsimp only
  split
  · next hempty =>
    rw [List.length_eq_zero_iff.mp hempty]
    exact ⟨rfl, rfl⟩
  · split <;> exact ⟨rfl, rfl⟩

/-- The lists are empty when the container is not there. -/
theorem lists_none : (getDownloadStatus numberText disk none).completed = [] ∧
    (getDownloadStatus numberText disk none).failed = [] ∧ (getDownloadStatus numberText disk none).progress = 0 := by
  unfold getDownloadStatus
  dsimp only
  split <;> exact ⟨rfl, rfl, rfl⟩

theorem progress_getDownloadStatus (inspect : Inspect) :
    (getDownloadStatus numberText disk (some inspect)).progress =
      if getQueuedAppIds disk = [] then 0
      else if inspect.status = "exited" ∨ inspect.status = "dead" then 100
      else percentage
        ((checkCompletedGames numberText disk.steamApps (getQueuedAppIds disk)).length +
          (checkFailedGames numberText disk.logs (getQueuedAppIds disk)).length) (getQueuedAppIds disk).length := by
  unfold getDownloadStatus
  dsimp only
  by_cases hempty : getQueuedAppIds disk = []
  · rw [if_pos hempty, if_pos (List.length_eq_zero_iff.mpr hempty)]
  · rw [if_neg hempty, if_neg (mt List.length_eq_zero_iff.mp hempty)]
    split
    · rfl
    · exact if_pos (List.length_pos_iff.mpr hempty)

theorem progress_nonneg (inspect : Option Inspect) : 0 ≤ (getDownloadStatus numberText disk inspect).progress := by
  cases inspect with
  | none => exact le_of_eq (lists_none numberText disk).2.2.symm
  | some inspect =>
      rw [progress_getDownloadStatus]
      split
      · exact Int.le_refl _
      · split
        · decide
        · rw [← percentage_zero]
          exact percentage_mono _ (Nat.zero_le _)

/-- Games are counted once. -/
theorem progress_le (inspect : Inspect)
    (hdisjoint : (checkCompletedGames numberText disk.steamApps (getQueuedAppIds disk)).Disjoint
      (checkFailedGames numberText disk.logs (getQueuedAppIds disk)))
    (hdistinct : (getQueuedAppIds disk).Nodup) :
    (getDownloadStatus numberText disk (some inspect)).progress ≤ 100 := by
  rw [progress_getDownloadStatus]
  split
  · decide
  · next hqueue =>
    split
    · exact Int.le_refl _
    · rw [← percentage_self (List.length_pos_iff.mpr hqueue)]
      refine percentage_mono _ ?_
      have hcompleted := completed_sublist numberText disk.steamApps (getQueuedAppIds disk)
      have hfailed := failed_sublist numberText disk.logs (getQueuedAppIds disk)
      have hnodup := List.Nodup.append (hcompleted.nodup hdistinct) (hfailed.nodup hdistinct) hdisjoint
      rw [← List.length_append]
      refine (List.subperm_of_subset hnodup ?_).length_le
      exact List.append_subset.mpr ⟨hcompleted.subset, hfailed.subset⟩

theorem progress_mono (inspect : Option Inspect) (steamApps : Directory)
    (h : FurtherComplete numberText (getQueuedAppIds disk) disk.steamApps steamApps) :
    (getDownloadStatus numberText disk inspect).progress ≤
      (getDownloadStatus numberText { disk with steamApps := steamApps } inspect).progress := by
  cases inspect with
  | none => rw [(lists_none numberText disk).2.2, (lists_none numberText { disk with steamApps := steamApps }).2.2]
  | some inspect =>
      rw [progress_getDownloadStatus, progress_getDownloadStatus]
      change _ ≤ if getQueuedAppIds disk = [] then _ else _
      split
      · exact Int.le_refl _
      · split
        · exact Int.le_refl _
        · exact percentage_mono _ (Nat.add_le_add_right (completed_mono numberText h) _)

/-- For every queue, whatever files there are and whatever has become of the container. -/
theorem consistent_iff (inspect : Option Inspect) (hdistinct : (getQueuedAppIds disk).Nodup) :
    (Consistent (getQueuedAppIds disk) (getDownloadStatus numberText disk inspect) ∧
      ∀ steamApps, FurtherComplete numberText (getQueuedAppIds disk) disk.steamApps steamApps →
        (getDownloadStatus numberText disk inspect).progress ≤
          (getDownloadStatus numberText { disk with steamApps := steamApps } inspect).progress) ↔
      (inspect ≠ none → ∀ appid ∈ getQueuedAppIds disk,
        ¬ (Complete numberText disk.steamApps appid ∧ Failed numberText disk.logs appid)) := by
  rw [and_iff_left (fun steamApps => progress_mono numberText disk inspect steamApps)]
  have hnonneg := progress_nonneg numberText disk inspect
  cases inspect with
  | none =>
      obtain ⟨hcompleted, hfailed, hprogress⟩ := lists_none numberText disk
      refine iff_of_true ?_ (fun hne => absurd rfl hne)
      refine ⟨?_, ?_, ?_, hnonneg, ?_⟩
      · rw [hcompleted]
        exact List.nil_sublist _
      · rw [hfailed]
        exact List.nil_sublist _
      · rw [hcompleted]
        exact List.disjoint_nil_left _
      · rw [hprogress]
        decide
  | some inspect =>
      obtain ⟨hcompleted, hfailed⟩ := lists_getDownloadStatus numberText disk inspect
      rw [forall_prop_of_true (Option.some_ne_none _), ← disjoint_iff]
      constructor
      · intro h
        rw [← hcompleted, ← hfailed]
        exact h.disjoint
      · intro hdisjoint
        refine ⟨?_, ?_, ?_, hnonneg, progress_le numberText disk inspect hdisjoint hdistinct⟩
        · rw [hcompleted]
          exact completed_sublist _ _ _
        · rw [hfailed]
          exact failed_sublist _ _ _
        · rw [hcompleted, hfailed]
          exact hdisjoint

end

def counterStrikeManifest : Directory where
  names := ["appmanifest_730.acf".toList]
  read name := if name = "appmanifest_730.acf".toList then some "StateFlags = \"4\"".toList else none

def errorLog (name : String) : Directory where
  names := [name.toList]
  read _ := none

def running : Inspect where
  status := "running"
  error := none

/-- One game is there, the other has failed. -/
def halfDone : Disk where
  games := some [.finite 730, .finite 440]
  steamApps := counterStrikeManifest
  logs := errorLog "steamcmd_440_error.log"

/-- The game is there after it had failed. -/
def retried : Disk where
  games := some [.finite 730]
  steamApps := counterStrikeManifest
  logs := errorLog "steamcmd_730_error.log"

theorem consistent_iff_halfDone :
    Consistent (getQueuedAppIds halfDone) (getDownloadStatus integerText halfDone (some running)) ∧
      ∀ steamApps, FurtherComplete integerText (getQueuedAppIds halfDone) halfDone.steamApps steamApps →
        (getDownloadStatus integerText halfDone (some running)).progress ≤
          (getDownloadStatus integerText { halfDone with steamApps := steamApps } (some running)).progress := by
  refine (consistent_iff integerText halfDone (some running) (by decide)).mpr fun _ appid hmem => ?_
  rintro ⟨⟨hmanifest, -⟩, hfailed⟩
  obtain rfl | hmem := List.mem_cons.mp hmem
  · exact absurd hfailed (by unfold Failed; decide)
  · obtain rfl := List.mem_singleton.mp hmem
    exact absurd hmanifest (by decide)

theorem retried_inconsistent : (getQueuedAppIds retried).Nodup ∧
    (getDownloadStatus integerText retried (some running)).completed = [.finite 730] ∧
    (getDownloadStatus integerText retried (some running)).failed = [.finite 730] ∧
    (getDownloadStatus integerText retried (some running)).progress = 200 ∧
    ¬ Consistent (getQueuedAppIds retried) (getDownloadStatus integerText retried (some running)) := by
  have happids : getQueuedAppIds retried = [.finite 730] := by decide
  have hcompleted : checkCompletedGames integerText retried.steamApps [.finite 730] = [.finite 730] := by decide
  have hfailed : checkFailedGames integerText retried.logs [.finite 730] = [.finite 730] := by decide
  obtain ⟨hcompleted', hfailed'⟩ := lists_getDownloadStatus integerText retried running
  have hprogress := progress_getDownloadStatus integerText retried running
  rw [happids, hcompleted, hfailed, if_neg (List.cons_ne_nil _ _), if_neg (by decide)] at hprogress
  have htwice : percentage (2 * 1) 1 = (2 * 100 : Nat) := percentage_mul Nat.one_pos (by decide)
  replace hprogress := hprogress.trans htwice
  rw [happids] at hcompleted' hfailed' ⊢
  refine ⟨by decide, hcompleted'.trans hcompleted, hfailed'.trans hfailed, hprogress, fun h => ?_⟩
  have hle := h.atMost
  rw [hprogress] at hle
  exact absurd hle (by decide)

end Stratus.Backend.Download
