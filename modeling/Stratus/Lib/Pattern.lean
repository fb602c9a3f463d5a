import Mathlib.Data.List.Basic
import Mathlib.Data.List.Infix

/-! Regular expressions that are sequences: characters of a class, one or as many as there are, some
of them captured.  The results of a match come in the order in which a backtracking search finds
them. -/
namespace Stratus.Lib

/-- The characters of a class: one of them, or `least` or more, as many as possible. -/
inductive PatternItem where
  | one (p : Char → Bool)
  | run (captured : Bool) (least : Nat) (p : Char → Bool)

abbrev Pattern := List PatternItem

namespace Pattern

/-- A text in a pattern. -/
def literal (text : List Char) : Pattern := text.map fun c => .one (· = c)

/-- The ways to take characters of a class off the front, the longest first. -/
def splits (p : Char → Bool) : List Char → List (List Char × List Char)
  | [] => [([], [])]
  | c :: rest =>
      if p c then (splits p rest).map (fun x => (c :: x.1, x.2)) ++ [([], c :: rest)]
      else [([], c :: rest)]

/-- What is captured and what is left. -/
def results : Pattern → List Char → List (List (List Char) × List Char)
  | [], s => [([], s)]
  | .one p :: items, s =>
      match s with
      | [] => []
      | c :: rest => if p c then results items rest else []
  | .run captured least p :: items, s =>
      ((splits p s).filter fun x => least ≤ x.1.length).flatMap fun x =>
        (results items x.2).map fun y => (if captured then x.1 :: y.1 else y.1, y.2)

/-- The pattern is somewhere in the text. -/
def test (pattern : Pattern) (s : List Char) : Bool :=
  s.tails.any fun t => !(results pattern t).isEmpty

/-- The pattern is the whole text. -/
def exec (pattern : Pattern) (s : List Char) : Option (List (List Char)) :=
  ((results pattern s).find? fun x => x.2.isEmpty).map Prod.fst

/-- What a pattern means. -/
inductive Matches : Pattern → List Char → List (List Char) → List Char → Prop where
  | nil {s : List Char} : Matches [] s [] s
  | one {p : Char → Bool} {items : Pattern} {c : Char} {s rest : List Char} {caps : List (List Char)}
      (hc : p c = true) (h : Matches items s caps rest) : Matches (.one p :: items) (c :: s) caps rest
  | run {captured : Bool} {least : Nat} {p : Char → Bool} {items : Pattern} {taken s rest : List Char}
      {caps : List (List Char)} (hall : ∀ c ∈ taken, p c = true) (hleast : least ≤ taken.length)
      (h : Matches items s caps rest) : Matches (.run captured least p :: items) (taken ++ s)
        (if captured then taken :: caps else caps) rest

theorem mem_splits {p : Char → Bool} {s : List Char} {x : List Char × List Char} :
    x ∈ splits p s ↔ s = x.1 ++ x.2 ∧ ∀ c ∈ x.1, p c = true := by
  obtain ⟨taken, left⟩ := x
  induction s generalizing taken left with
  | nil =>
      rw [splits, List.mem_singleton, Prod.mk.injEq]
      constructor
      · rintro ⟨rfl, rfl⟩
        exact ⟨rfl, nofun⟩
      · rintro ⟨h, -⟩
        exact List.append_eq_nil_iff.mp h.symm
  | cons c s ih =>
      have hnone : (taken, left) = (([] : List Char), c :: s) →
          c :: s = taken ++ left ∧ ∀ d ∈ taken, p d = true := by
        rintro ⟨⟩
        exact ⟨rfl, nofun⟩
      rw [splits]
      split
      · next hc =>
        rw [List.mem_append, List.mem_map, List.mem_singleton]
        constructor
        · rintro (⟨y, hy, heq⟩ | h)
          · obtain ⟨rfl, rfl⟩ := Prod.mk.inj heq
            obtain ⟨hs, hall⟩ := ih y.1 y.2 |>.mp hy
            exact ⟨congrArg (c :: ·) hs, List.forall_mem_cons.mpr ⟨hc, hall⟩⟩
          · exact hnone h
        · rintro ⟨hs, hall⟩
          cases taken with
          | nil => exact .inr (Prod.ext rfl hs.symm)
          | cons d taken =>
              obtain ⟨rfl, hs⟩ := List.cons.inj hs
              refine .inl ⟨(taken, left), ih taken left |>.mpr ⟨hs, ?_⟩, rfl⟩
              exact fun d hd => hall d (List.mem_cons_of_mem _ hd)
      · next hc =>
        rw [List.mem_singleton]
        refine ⟨hnone, ?_⟩
        rintro ⟨hs, hall⟩
        cases taken with
        | nil => exact Prod.ext rfl hs.symm
        | cons d taken =>
            obtain ⟨rfl, hs⟩ := List.cons.inj hs
            exact absurd (hall c List.mem_cons_self) hc

theorem mem_results {pattern : Pattern} {s rest : List Char} {caps : List (List Char)} :
    (caps, rest) ∈ results pattern s ↔ Matches pattern s caps rest := by
  induction pattern generalizing s caps with
  | nil =>
      rw [results, List.mem_singleton, Prod.mk.injEq]
      constructor
      · rintro ⟨rfl, rfl⟩
        exact .nil
      · rintro ⟨⟩
        exact ⟨rfl, rfl⟩
  | cons item items ih =>
      cases item with
      | one p =>
          constructor
          · intro h
            rw [results.eq_def] at h
            dsimp only at h
            split at h
            · cases h
            · split at h
              · next hc => exact .one hc (ih.mp h)
              · cases h
          · rintro (_ | ⟨hc, h⟩)
            rw [results.eq_def]
            dsimp only
            rw [if_pos hc]
            exact ih.mpr h
      | run captured least p =>
          rw [results, List.mem_flatMap]
          constructor
          · rintro ⟨x, hx, hmem⟩
            obtain ⟨hx, hleast⟩ := List.mem_filter.mp hx
            obtain ⟨hs, hall⟩ := mem_splits.mp hx
            obtain ⟨y, hy, heq⟩ := List.mem_map.mp hmem
            obtain ⟨rfl, rfl⟩ := Prod.mk.inj heq
            rw [hs]
            exact .run hall (of_decide_eq_true hleast) (ih.mp hy)
          · rintro (_ | _ | @⟨_, _, _, _, taken, s, _, caps, hall, hleast, h⟩)
            refine ⟨(taken, s), ?_, List.mem_map.mpr ⟨(caps, rest), ih.mpr h, rfl⟩⟩
            exact List.mem_filter.mpr ⟨mem_splits.mpr ⟨rfl, hall⟩, decide_eq_true hleast⟩

theorem test_iff {pattern : Pattern} {s : List Char} :
    test pattern s = true ↔ ∃ before t caps rest, s = before ++ t ∧ Matches pattern t caps rest := by
  rw [test, List.any_eq_true]
  constructor
  · rintro ⟨t, ht, hsome⟩
    obtain ⟨before, rfl⟩ := (List.mem_tails _ _).mp ht
    cases hresults : results pattern t with
    | nil =>
        rw [hresults] at hsome
        cases hsome
    | cons x _ =>
        exact ⟨before, t, x.1, x.2, rfl, mem_results.mp (by rw [hresults]; exact List.mem_cons_self)⟩
  · rintro ⟨before, t, caps, rest, rfl, h⟩
    refine ⟨t, (List.mem_tails _ _).mpr (List.suffix_append _ _), ?_⟩
    have hmem := mem_results.mpr h
    cases hresults : results pattern t with
    | nil =>
        rw [hresults] at hmem
        cases hmem
    | cons _ _ => rfl

theorem matches_of_exec {pattern : Pattern} {s : List Char} {caps : List (List Char)}
    (h : exec pattern s = some caps) : Matches pattern s caps [] := by
  obtain ⟨x, hx, rfl⟩ := Option.map_eq_some_iff.mp h
  have hempty : x.2 = [] := by
    have hfound := List.find?_some hx
    simpa using hfound
  rw [← hempty]
  exact mem_results.mp (List.mem_of_find?_eq_some hx)

/-- When there is only one way to match. -/
theorem exec_eq_some {pattern : Pattern} {s : List Char} {caps : List (List Char)}
    (hunique : ∀ caps', Matches pattern s caps [] → Matches pattern s caps' [] → caps' = caps) :
    exec pattern s = some caps ↔ Matches pattern s caps [] := by
  refine ⟨matches_of_exec, fun h => ?_⟩
  obtain ⟨x, hx⟩ : ∃ x, (results pattern s).find? (fun x => x.2.isEmpty) = some x := by
    rw [← Option.isSome_iff_exists, List.find?_isSome]
    exact ⟨_, mem_results.mpr h, rfl⟩
  have hexec : exec pattern s = some x.1 := Option.map_eq_some_iff.mpr ⟨x, hx, rfl⟩
  rw [hexec, hunique _ h (matches_of_exec hexec)]

/-! ### The parts of a text that matches -/

section Parts

variable {p : Char → Bool} {items : Pattern} {s rest : List Char} {caps : List (List Char)}

theorem matches_nil : Matches [] s caps rest ↔ caps = [] ∧ rest = s := by
  constructor
  · rintro ⟨⟩
    exact ⟨rfl, rfl⟩
  · rintro ⟨rfl, rfl⟩
    exact .nil

theorem matches_one : Matches (.one p :: items) s caps rest ↔
    ∃ c s', s = c :: s' ∧ p c = true ∧ Matches items s' caps rest := by
  constructor
  · rintro (_ | ⟨hc, h⟩)
    exact ⟨_, _, rfl, hc, h⟩
  · rintro ⟨c, s', rfl, hc, h⟩
    exact .one hc h

theorem matches_run {captured : Bool} {least : Nat} :
    Matches (.run captured least p :: items) s caps rest ↔ ∃ taken s' caps', s = taken ++ s' ∧
      (∀ c ∈ taken, p c = true) ∧ least ≤ taken.length ∧ Matches items s' caps' rest ∧
      caps = if captured then taken :: caps' else caps' := by
  constructor
  · rintro (_ | _ | ⟨hall, hleast, h⟩)
    exact ⟨_, _, _, rfl, hall, hleast, h, rfl⟩
  · rintro ⟨taken, s', caps', rfl, hall, hleast, h, rfl⟩
    exact .run hall hleast h

theorem matches_literal {text : List Char} : Matches (literal text ++ items) s caps rest ↔
    ∃ s', s = text ++ s' ∧ Matches items s' caps rest := by
  induction text generalizing s with
  | nil =>
      constructor
      · intro h
        exact ⟨s, rfl, h⟩
      · rintro ⟨s', rfl, h⟩
        exact h
  | cons c text ih =>
      rw [literal, List.map_cons, List.cons_append, matches_one]
      constructor
      · rintro ⟨d, s', rfl, hd, h⟩
        obtain ⟨s'', rfl, h'⟩ := ih.mp h
        rw [of_decide_eq_true hd]
        exact ⟨s'', rfl, h'⟩
      · rintro ⟨s', rfl, h⟩
        exact ⟨c, text ++ s', rfl, decide_eq_true rfl, ih.mpr ⟨s', rfl, h⟩⟩

end Parts

/-- Two texts that go on with a character that is not of the class after the characters that are. -/
theorem append_cons_inj {p : Char → Bool} {d : Char} (hd : p d = false) {xs ys s t : List Char}
    (hxs : ∀ c ∈ xs, p c = true) (hys : ∀ c ∈ ys, p c = true) (h : xs ++ d :: s = ys ++ d :: t) :
    xs = ys ∧ s = t := by
  induction xs generalizing ys with
  | nil =>
      cases ys with
      | nil => exact ⟨rfl, (List.cons.inj h).2⟩
      | cons y ys =>
          obtain ⟨rfl, -⟩ := List.cons.inj h
          rw [hys d List.mem_cons_self] at hd
          cases hd
  | cons x xs ih =>
      cases ys with
      | nil =>
          obtain ⟨rfl, -⟩ := List.cons.inj h
          rw [hxs x List.mem_cons_self] at hd
          cases hd
      | cons y ys =>
          obtain ⟨rfl, h'⟩ := List.cons.inj h
          obtain ⟨rfl, rfl⟩ := ih (fun c hc => hxs c (List.mem_cons_of_mem _ hc))
            (fun c hc => hys c (List.mem_cons_of_mem _ hc)) h'
          exact ⟨rfl, rfl⟩

/-- As many characters of a class as there are. -/
theorem takeWhile_eq_iff {p : Char → Bool} {s taken : List Char} : s.takeWhile p = taken ↔
    ∃ rest, s = taken ++ rest ∧ (∀ c ∈ taken, p c = true) ∧ ∀ c ∈ rest.head?, p c = false := by
  constructor
  · rintro rfl
    refine ⟨s.dropWhile p, List.takeWhile_append_dropWhile.symm, ?_, fun c hc => ?_⟩
    · exact List.all_eq_true.mp List.all_takeWhile
    · have hnot := List.head?_dropWhile_not p s
      rw [Option.mem_def.mp hc] at hnot
      exact hnot
  · rintro ⟨rest, rfl, htaken, hrest⟩
    rw [List.takeWhile_append_of_pos htaken]
    cases rest with
    | nil => exact List.append_nil _
    | cons c rest =>
        have hc : ¬ p c = true := Bool.eq_false_iff.mp (hrest c rfl)
        rw [List.takeWhile_cons_of_neg hc, List.append_nil]

end Pattern

end Stratus.Lib
