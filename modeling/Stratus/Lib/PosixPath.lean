import Mathlib.Data.List.Basic
import Mathlib.Data.List.Induction

/-! Paths whose names are separated by one character, and what `path.posix` of Node makes of them.  A path
is worked off from the left: a name is put on a stack, two dots take one off again. -/
namespace Stratus.Lib

/-- The characters that have a meaning in a path. -/
structure PathChars (α : Type*) where
  slash : α
  dot : α
  ne : dot ≠ slash

namespace PathChars

variable {α : Type*} (p : PathChars α)

/-- The directory above. -/
def up : List α := [p.dot, p.dot]

/-- A segment that is the name of a file or a directory. -/
def IsName (segment : List α) : Prop :=
  segment ≠ [] ∧ segment ≠ [p.dot] ∧ segment ≠ p.up ∧ p.slash ∉ segment

/-- Names, below any number of steps up. -/
def Clean (above : Bool) (names : List (List α)) : Prop :=
  ∃ n rest, names = List.replicate n p.up ++ rest ∧ (above = false → n = 0) ∧ ∀ name ∈ rest, p.IsName name

section

variable {p} {above : Bool}

theorem up_ne : ¬ (p.up = [] ∨ p.up = [p.dot]) := by
  rintro (h | h) <;> cases h

theorem slash_not_mem_up : p.slash ∉ p.up := by
  unfold up
  simp only [List.mem_cons, List.not_mem_nil, or_false, or_self]
  exact p.ne.symm

theorem Clean.nil : p.Clean above [] := ⟨0, [], rfl, fun _ => rfl, nofun⟩

theorem Clean.mem {names : List (List α)} (h : p.Clean above names) {name : List α} (hmem : name ∈ names) :
    name ≠ [] ∧ p.slash ∉ name := by
  obtain ⟨n, rest, rfl, -, hrest⟩ := h
  obtain hmem | hmem := List.mem_append.mp hmem
  · rw [List.eq_of_mem_replicate hmem]
    exact ⟨fun h => up_ne (.inl h), slash_not_mem_up⟩
  · exact ⟨(hrest name hmem).1, (hrest name hmem).2.2.2⟩

end

variable [DecidableEq α]

def segments (path : List α) : List (List α) := path.splitOn p.slash

def text (names : List (List α)) : List α := [p.slash].intercalate names

/-- One segment after the names so far; `above` says whether one may leave the place one starts from. -/
def push (above : Bool) (names : List (List α)) (segment : List α) : List (List α) :=
  if segment = [] ∨ segment = [p.dot] then names
  else if segment = p.up then
    match names.getLast? with
    | none => if above then names ++ [p.up] else names
    | some name => if name = p.up then (if above then names ++ [p.up] else names) else names.dropLast
  else names ++ [segment]

def isAbsolute (path : List α) : Bool := path.head? = some p.slash

def endsWithSlash (path : List α) : Bool := path.getLast? = some p.slash

/-- The names that a path leads through. -/
def names (path : List α) : List (List α) := (p.segments path).foldl (p.push (!p.isAbsolute path)) []

/-- `normalize`. -/
def normalize (path : List α) : List α :=
  if path = [] then [p.dot]
  else if p.names path = [] then
    if p.isAbsolute path then [p.slash] else if p.endsWithSlash path then [p.dot, p.slash] else [p.dot]
  else
    (if p.isAbsolute path then [p.slash] else []) ++ p.text (p.names path) ++
      if p.endsWithSlash path then [p.slash] else []

/-- `join`. -/
def join (parts : List (List α)) : List α :=
  let joined := p.text (parts.filter fun part => part ≠ [])
  if joined = [] then [p.dot] else p.normalize joined

/-- `dirname`. -/
def dirname (path : List α) : List α :=
  if path = [] then [p.dot]
  else
    match (path.reverse.dropWhile (· = p.slash)).dropWhile (· ≠ p.slash) with
    -- the first character is not looked at
    | _ :: c :: before =>
        if p.isAbsolute path ∧ before = [] then [p.slash, p.slash] else (c :: before).reverse
    | _ => if p.isAbsolute path then [p.slash] else [p.dot]

/-! ### The stack -/

variable {p} {above : Bool}

theorem push_skip {names : List (List α)} {segment : List α} (h : segment = [] ∨ segment = [p.dot]) :
    p.push above names segment = names := if_pos h

theorem push_name {names : List (List α)} {segment : List α} (h : p.IsName segment) :
    p.push above names segment = names ++ [segment] := by
  obtain ⟨hnil, hdot, hup, -⟩ := h
  rw [push, if_neg (not_or.mpr ⟨hnil, hdot⟩), if_neg hup]

theorem push_up_names {names : List (List α)} {name : List α} (h : p.IsName name) :
    p.push above (names ++ [name]) p.up = names := by
  rw [push, if_neg up_ne, if_pos rfl, List.getLast?_concat]
  dsimp only
  rw [if_neg h.2.2.1, List.dropLast_concat]

theorem push_up_replicate (n : Nat) (h : above = false → n = 0) :
    p.push above (List.replicate n p.up) p.up = List.replicate (if above then n + 1 else 0) p.up := by
  rw [push, if_neg up_ne, if_pos rfl]
  cases n with
  | zero => cases above <;> rfl
  | succ n =>
      cases above with
      | false => cases h rfl
      | true =>
          rw [List.replicate_succ', List.getLast?_concat]
          dsimp only
          rw [if_pos rfl, if_pos rfl, if_pos rfl, ← List.replicate_succ', ← List.replicate_succ']

theorem Clean.push {names : List (List α)} {segment : List α} (h : p.Clean above names)
    (hsegment : p.slash ∉ segment) : p.Clean above (p.push above names segment) := by
  obtain ⟨n, rest, rfl, hn, hrest⟩ := h
  by_cases hskip : segment = [] ∨ segment = [p.dot]
  · rw [push_skip hskip]
    exact ⟨n, rest, rfl, hn, hrest⟩
  · by_cases hup : segment = p.up
    · subst hup
      obtain rfl | ⟨rest, name, rfl⟩ := List.eq_nil_or_concat' rest
      · rw [List.append_nil, push_up_replicate n hn]
        refine ⟨_, [], (List.append_nil _).symm, fun h => ?_, nofun⟩
        rw [h]
        rfl
      · rw [List.forall_mem_append] at hrest
        rw [← List.append_assoc, push_up_names (hrest.2 name List.mem_cons_self)]
        exact ⟨n, rest, rfl, hn, hrest.1⟩
    · rw [not_or] at hskip
      have hname : p.IsName segment := ⟨hskip.1, hskip.2, hup, hsegment⟩
      rw [push_name hname, List.append_assoc]
      refine ⟨n, rest ++ [segment], rfl, hn, List.forall_mem_append.mpr ⟨hrest, ?_⟩⟩
      exact List.forall_mem_singleton.mpr hname

theorem Clean.foldl {names segments : List (List α)} (h : p.Clean above names)
    (hsegments : ∀ segment ∈ segments, p.slash ∉ segment) : p.Clean above (segments.foldl (p.push above) names) := by
  induction segments generalizing names with
  | nil => exact h
  | cons segment segments ih =>
      rw [List.forall_mem_cons] at hsegments
      exact ih (h.push hsegments.1) hsegments.2

theorem foldl_push_names {names rest : List (List α)} (h : ∀ name ∈ rest, p.IsName name) :
    rest.foldl (p.push above) names = names ++ rest := by
  induction rest generalizing names with
  | nil => exact (List.append_nil _).symm
  | cons name rest ih =>
      rw [List.forall_mem_cons] at h
      rw [List.foldl_cons, push_name h.1, ih h.2, List.append_assoc, List.singleton_append]

theorem foldl_push_replicate (n : Nat) (h : above = false → n = 0) :
    (List.replicate n p.up).foldl (p.push above) [] = List.replicate n p.up := by
  cases above with
  | false =>
      rw [h rfl]
      rfl
  | true =>
      clear h
      induction n with
      | zero => rfl
      | succ n ih =>
          have hpush := push_up_replicate (p := p) n (fun h : true = false => nomatch h)
          rw [if_pos rfl] at hpush
          rw [List.replicate_succ', List.foldl_append, ih, List.foldl_cons, List.foldl_nil, hpush,
            List.replicate_succ']

/-- A clean stack stays as it is. -/
theorem Clean.foldl_push {names : List (List α)} (h : p.Clean above names) :
    names.foldl (p.push above) [] = names := by
  obtain ⟨n, rest, rfl, hn, hrest⟩ := h
  rw [List.foldl_append, foldl_push_replicate n hn, foldl_push_names hrest]

/-- Where no segment leads up, the stack only grows. -/
theorem foldl_push_below {names segments : List (List α)}
    (h : ∀ segment ∈ segments, p.slash ∉ segment ∧ segment ≠ p.up) : segments.foldl (p.push above) names =
      names ++ segments.filter fun segment => segment ≠ [] ∧ segment ≠ [p.dot] := by
  induction segments generalizing names with
  | nil => exact (List.append_nil _).symm
  | cons segment segments ih =>
      rw [List.forall_mem_cons] at h
      rw [List.foldl_cons, ih h.2, List.filter_cons]
      by_cases hskip : segment = [] ∨ segment = [p.dot]
      · rw [push_skip hskip, if_neg]
        rw [decide_eq_true_eq, not_and_or, not_not, not_not]
        exact hskip
      · rw [not_or] at hskip
        rw [push_name ⟨hskip.1, hskip.2, h.1.2, h.1.1⟩, if_pos (decide_eq_true hskip), List.append_assoc,
          List.singleton_append]

/-! ### Segments -/

theorem segments_slash (path : List α) : p.segments (p.slash :: path) = [] :: p.segments path :=
  List.splitOn_append_cons_self [] path

theorem segments_append_slash (path : List α) : p.segments (path ++ [p.slash]) = p.segments path ++ [[]] :=
  List.splitOn_append_cons_self path []

theorem slash_not_mem_segments (path : List α) : ∀ segment ∈ p.segments path, p.slash ∉ segment := by
  induction path with
  | nil => exact List.forall_mem_singleton.mpr List.not_mem_nil
  | cons c path ih =>
      by_cases hc : c = p.slash
      · rw [hc, segments_slash]
        exact List.forall_mem_cons.mpr ⟨List.not_mem_nil, ih⟩
      · obtain ⟨segment, segments, hsegments⟩ := List.exists_cons_of_ne_nil (List.splitOn_ne_nil p.slash path)
        have hcons : p.segments (c :: path) = (c :: segment) :: segments := by
          rw [PathChars.segments, List.splitOn_cons_eq_if_modifyHead, hsegments, if_neg (by simpa using hc)]
          rfl
        rw [PathChars.segments, hsegments, List.forall_mem_cons] at ih
        rw [hcons, List.forall_mem_cons]
        exact ⟨List.not_mem_cons_of_ne_of_not_mem (Ne.symm hc) ih.1, ih.2⟩

theorem clean_names (path : List α) : p.Clean (!p.isAbsolute path) (p.names path) :=
  Clean.nil.foldl (slash_not_mem_segments path)

section

variable {names : List (List α)} (h : p.Clean above names) (hne : names ≠ [])

include h hne

theorem segments_text : p.segments (p.text names) = names :=
  List.splitOn_intercalate p.slash (fun _ hmem => (h.mem hmem).2) hne

theorem text_ne_nil : p.text names ≠ [] := by
  intro htext
  have hnames := segments_text h hne
  rw [htext] at hnames
  exact (h.mem (hnames ▸ List.mem_cons_self)).1 rfl

theorem head_text : (p.text names).head? ≠ some p.slash := by
  intro hhead
  have hnames := segments_text h hne
  obtain ⟨rest, hrest⟩ := List.head?_eq_some_iff.mp hhead
  rw [hrest, segments_slash] at hnames
  exact (h.mem (hnames ▸ List.mem_cons_self)).1 rfl

theorem last_text : (p.text names).getLast? ≠ some p.slash := by
  intro hlast
  have hnames := segments_text h hne
  obtain ⟨rest, hrest⟩ := List.getLast?_eq_some_iff.mp hlast
  rw [hrest, segments_append_slash] at hnames
  exact (h.mem (hnames ▸ List.mem_append_right _ List.mem_cons_self)).1 rfl

end

/-! ### Normal paths -/

/-- The names as a path, which may begin and end with a slash. -/
def wrap (p : PathChars α) (absolute directory : Bool) (names : List (List α)) : List α :=
  (if absolute then [p.slash] else []) ++ p.text names ++ if directory then [p.slash] else []

section

variable {names : List (List α)} {absolute directory : Bool} (h : p.Clean (!absolute) names) (hne : names ≠ [])

include h hne

theorem isAbsolute_wrap : p.isAbsolute (p.wrap absolute directory names) = absolute := by
  unfold isAbsolute wrap
  cases absolute with
  | true => exact decide_eq_true rfl
  | false =>
      obtain ⟨c, rest, htext⟩ := List.exists_cons_of_ne_nil (text_ne_nil h hne)
      have hhead := head_text h hne
      rw [if_neg Bool.false_ne_true, List.nil_append]
      rw [htext] at hhead ⊢
      exact decide_eq_false hhead

theorem endsWithSlash_wrap : p.endsWithSlash (p.wrap absolute directory names) = directory := by
  unfold endsWithSlash wrap
  cases directory with
  | true =>
      rw [if_pos rfl, List.getLast?_concat]
      exact decide_eq_true rfl
  | false =>
      obtain ⟨c, rest, htext⟩ := List.exists_cons_of_ne_nil (text_ne_nil h hne)
      have hlast := last_text h hne
      rw [if_neg Bool.false_ne_true, List.append_nil]
      rw [htext] at hlast ⊢
      rw [List.getLast?_append, List.getLast?_cons, Option.some_or, ← List.getLast?_cons]
      exact decide_eq_false hlast

theorem segments_wrap : p.segments (p.wrap absolute directory names) =
    (if absolute then [[]] else []) ++ names ++ if directory then [[]] else [] := by
  have htext : p.segments (p.text names ++ if directory then [p.slash] else []) =
      names ++ if directory then [[]] else [] := by
    cases directory with
    | true => rw [if_pos rfl, if_pos rfl, segments_append_slash, segments_text h hne]
    | false =>
        rw [if_neg Bool.false_ne_true, if_neg Bool.false_ne_true, List.append_nil, List.append_nil,
          segments_text h hne]
  unfold wrap
  rw [List.append_assoc, List.append_assoc]
  cases absolute with
  | true =>
      rw [if_pos rfl, if_pos rfl, List.singleton_append, List.singleton_append, segments_slash, htext]
  | false => exact htext

theorem names_wrap : p.names (p.wrap absolute directory names) = names := by
  rw [PathChars.names, isAbsolute_wrap h hne, segments_wrap h hne, List.foldl_append, List.foldl_append]
  have hskip (b : Bool) (stack : List (List α)) :
      (if b then [[]] else []).foldl (p.push (!absolute)) stack = stack := by
    cases b with
    | true => rw [if_pos rfl, List.foldl_cons, push_skip (.inl rfl), List.foldl_nil]
    | false => rfl
  rw [hskip, hskip, h.foldl_push]

theorem normalize_wrap : p.normalize (p.wrap absolute directory names) = p.wrap absolute directory names := by
  have hnonempty : p.wrap absolute directory names ≠ [] := by
    refine List.append_ne_nil_of_left_ne_nil (List.append_ne_nil_of_right_ne_nil _ ?_) _
    exact text_ne_nil h hne
  rw [normalize, if_neg hnonempty, names_wrap h hne, if_neg hne, isAbsolute_wrap h hne, endsWithSlash_wrap h hne]
  rfl

end

/-- The forms of what `normalize` gives. -/
theorem normalize_cases (path : List α) :
    (p.names path = [] ∧ p.normalize path = if p.isAbsolute path then [p.slash]
        else if p.endsWithSlash path then [p.dot, p.slash] else [p.dot]) ∨
      (p.names path ≠ [] ∧
        p.normalize path = p.wrap (p.isAbsolute path) (p.endsWithSlash path) (p.names path)) := by
  by_cases hpath : path = []
  · subst hpath
    exact .inl ⟨rfl, rfl⟩
  · unfold normalize
    rw [if_neg hpath]
    by_cases hnames : p.names path = []
    · exact .inl ⟨hnames, if_pos hnames⟩
    · exact .inr ⟨hnames, if_neg hnames⟩

theorem segments_dot : p.segments [p.dot] = [[p.dot]] := by
  refine List.splitOn_eq_singleton fun hmem => ?_
  exact p.ne (List.mem_singleton.mp hmem).symm

theorem names_skip {path : List α} (h : ∀ segment ∈ p.segments path, segment = [] ∨ segment = [p.dot]) :
    p.names path = [] := by
  unfold PathChars.names
  generalize p.segments path = segments at h
  induction segments with
  | nil => rfl
  | cons segment segments ih =>
      rw [List.forall_mem_cons] at h
      rw [List.foldl_cons, push_skip h.1]
      exact ih h.2

theorem names_slash : p.names [p.slash] = [] := by
  refine names_skip ?_
  rw [segments_slash]
  exact List.forall_mem_cons.mpr ⟨.inl rfl, List.forall_mem_singleton.mpr (.inl rfl)⟩

theorem names_dot : p.names [p.dot] = [] := by
  refine names_skip ?_
  rw [segments_dot]
  exact List.forall_mem_singleton.mpr (.inr rfl)

theorem names_dot_slash : p.names [p.dot, p.slash] = [] := by
  refine names_skip ?_
  rw [← List.singleton_append, segments_append_slash, segments_dot]
  exact List.forall_mem_cons.mpr ⟨.inr rfl, List.forall_mem_singleton.mpr (.inl rfl)⟩

theorem isAbsolute_dot (path : List α) : p.isAbsolute (p.dot :: path) = false :=
  decide_eq_false fun h => p.ne (Option.some.inj h)

theorem names_normalize (path : List α) : p.names (p.normalize path) = p.names path := by
  obtain ⟨hnames, hpath⟩ | ⟨hnames, hpath⟩ := normalize_cases (p := p) path
  · rw [hpath, hnames]
    split
    · exact names_slash
    · split
      · exact names_dot_slash
      · exact names_dot
  · rw [hpath, names_wrap (clean_names path) hnames]

theorem isAbsolute_normalize (path : List α) : p.isAbsolute (p.normalize path) = p.isAbsolute path := by
  obtain ⟨-, hpath⟩ | ⟨hnames, hpath⟩ := normalize_cases (p := p) path
  · rw [hpath]
    split
    · next habsolute =>
      rw [habsolute]
      exact decide_eq_true rfl
    · next hrelative =>
      rw [Bool.not_eq_true] at hrelative
      rw [hrelative]
      split <;> exact isAbsolute_dot _
  · rw [hpath, isAbsolute_wrap (clean_names path) hnames]

/-- Normalising twice is normalising once. -/
theorem normalize_normalize (path : List α) : p.normalize (p.normalize path) = p.normalize path := by
  obtain ⟨-, hpath⟩ | ⟨hnames, hpath⟩ := normalize_cases (p := p) path
  · rw [hpath]
    split
    · rw [normalize, if_neg (List.cons_ne_nil _ _), if_pos names_slash]
      exact if_pos (decide_eq_true rfl)
    · split
      · rw [normalize, if_neg (List.cons_ne_nil _ _), if_pos names_dot_slash, isAbsolute_dot]
        exact if_pos (decide_eq_true rfl)
      · rw [normalize, if_neg (List.cons_ne_nil _ _), if_pos names_dot, isAbsolute_dot]
        exact if_neg (ne_true_of_eq_false (decide_eq_false fun h => p.ne (Option.some.inj h)))
  · rw [hpath, normalize_wrap (clean_names path) hnames]

/-- A path that goes down only. -/
structure Inside (p : PathChars α) (path : List α) : Prop where
  normal : p.normalize path = path
  nonempty : path ≠ []
  relative : path.head? ≠ some p.slash
  below : p.up ∉ p.segments path

/-- What begins with no step up has none. -/
theorem inside_normalize {path : List α} (hrelative : p.isAbsolute (p.normalize path) = false)
    (hup : p.normalize path ≠ p.up) (hbegin : ¬ p.up ++ [p.slash] <+: p.normalize path) :
    p.Inside (p.normalize path) := by
  rw [isAbsolute_normalize] at hrelative
  have hbelow : p.normalize path ≠ [] ∧ p.up ∉ p.segments (p.normalize path) := by
    obtain ⟨-, hpath⟩ | ⟨hnames, hpath⟩ := normalize_cases (p := p) path
    · rw [hrelative, if_neg Bool.false_ne_true] at hpath
      rw [hpath]
      split
      · refine ⟨List.cons_ne_nil _ _, ?_⟩
        rw [← List.singleton_append, segments_append_slash, segments_dot]
        rintro (_ | ⟨_, _ | ⟨_, ⟨⟩⟩⟩)
      · refine ⟨List.cons_ne_nil _ _, ?_⟩
        rw [segments_dot]
        rintro (_ | ⟨_, ⟨⟩⟩)
    · have hclean := clean_names (p := p) path
      rw [hrelative] at hpath hclean
      refine ⟨?_, ?_⟩
      · rw [hpath]
        exact List.append_ne_nil_of_left_ne_nil (text_ne_nil hclean hnames) _
      rw [hpath, segments_wrap hclean hnames]
      obtain ⟨n, rest, heq, -, hrest⟩ := hclean
      cases n with
      | zero =>
          rw [List.replicate_zero, List.nil_append] at heq
          rw [heq, if_neg Bool.false_ne_true, List.nil_append]
          intro hmem
          obtain hmem | hmem := List.mem_append.mp hmem
          · exact (hrest _ hmem).2.2.1 rfl
          · split at hmem
            · exact up_ne (.inl (List.mem_singleton.mp hmem))
            · cases hmem
      | succ n =>
          rw [List.replicate_succ, List.cons_append] at heq
          rw [hpath, heq, wrap, if_neg Bool.false_ne_true, List.nil_append] at hup hbegin
          cases hothers : List.replicate n p.up ++ rest with
          | nil =>
              rw [hothers, text, List.intercalate_singleton] at hup hbegin
              cases hslash : p.endsWithSlash path with
              | true =>
                  rw [hslash] at hbegin
                  exact absurd (List.prefix_refl _) hbegin
              | false =>
                  rw [hslash] at hup
                  exact absurd (List.append_nil _) hup
          | cons name others =>
              refine absurd ?_ hbegin
              rw [hothers, text, List.intercalate_cons_cons, List.append_assoc]
              exact List.prefix_append _ _
  have habsolute := isAbsolute_normalize (p := p) path
  rw [hrelative] at habsolute
  exact ⟨normalize_normalize path, hbelow.1, of_decide_eq_false habsolute, hbelow.2⟩

/-- A path inside another one: its names come after those of the other. -/
theorem names_join {root path : List α} (hroot : p.isAbsolute root = true) (h : p.Inside path) :
    p.names (p.join [root, path]) = p.names root ++ p.names path := by
  have hne : root ≠ [] := by
    rintro rfl
    cases hroot
  have hjoined : p.text [root, path] = root ++ p.slash :: path := by
    rw [text, List.intercalate_cons_cons, List.intercalate_singleton, List.append_assoc, List.singleton_append]
  have habsolute : p.isAbsolute (root ++ p.slash :: path) = true := by
    obtain ⟨c, rest, rfl⟩ := List.exists_cons_of_ne_nil hne
    exact hroot
  have hsegments : ∀ segment ∈ p.segments path, p.slash ∉ segment ∧ segment ≠ p.up := by
    intro segment hmem
    exact ⟨slash_not_mem_segments path segment hmem, fun heq => h.below (heq ▸ hmem)⟩
  have hfilter : [root, path].filter (fun part => part ≠ []) = [root, path] := by
    refine List.filter_eq_self.mpr ?_
    exact List.forall_mem_cons.mpr ⟨decide_eq_true hne, List.forall_mem_singleton.mpr (decide_eq_true h.nonempty)⟩
  rw [join, hfilter, hjoined, if_neg (List.append_ne_nil_of_left_ne_nil hne _), names_normalize, PathChars.names, habsolute,
    PathChars.segments, List.splitOn_append_cons_self, List.foldl_append]
  change (p.segments path).foldl _ ((p.segments root).foldl _ _) = _
  rw [foldl_push_below hsegments, PathChars.names, PathChars.names, hroot, foldl_push_below hsegments,
    List.nil_append]

end PathChars

end Stratus.Lib
