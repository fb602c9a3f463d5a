import Stratus.Lib.PosixPath
import Stratus.Lib.UriComponent

/-! `resolveDocAssetPath` and `buildBlogAssetUrl` of `blogs.ts`: the files that a page of the docs may
name, and their addresses. -/
namespace Stratus.Frontend.Blogs

open Stratus.Lib Units

/-- The paths of `path.posix`. -/
def posix : PathChars UInt16 where
  slash := 47
  dot := 46
  ne := by decide

def startsWith (s : Units) (text : String) : Bool := (lit text).isPrefixOf s

/-- `sep` is `path.sep`. -/
def toPosixPath (sep : UInt16) (value : Units) : Units := posix.text (value.splitOn sep)

/-- `[a-z]`, without regard to case. -/
def isLetter (u : UInt16) : Bool :=
  (65 ≤ u.toNat && u.toNat ≤ 90) || (97 ≤ u.toNat && u.toNat ≤ 122)

/-- `/^[a-z]+:/i`. -/
def hasScheme (s : Units) : Bool := s.takeWhile isLetter ≠ [] && startsWith (s.dropWhile isLetter) ":"

/-- `split(/[?#]/, 1)[0]`. -/
def withoutSuffix (s : Units) : Units := s.takeWhile fun u => u ≠ 63 && u ≠ 35

/-- An error is its message, and `none` is `null`. -/
def resolveDocAssetPath (sep : UInt16) (sourceRelativePath rawAssetPath : Units) : Except Units (Option Units) :=
  if rawAssetPath = [] ∨ startsWith rawAssetPath "#" then .ok none
  else if hasScheme rawAssetPath ∨ startsWith rawAssetPath "//" then .ok none
  else
    let sourceDir := posix.dirname (toPosixPath sep sourceRelativePath)
    let normalizedAssetPath := withoutSuffix rawAssetPath
    let resolvedPath :=
      if startsWith rawAssetPath "/" then
        -- `replace(/^\/+/, "")`
        posix.normalize (normalizedAssetPath.dropWhile (· = posix.slash))
      else posix.normalize (posix.join [sourceDir, normalizedAssetPath])
    if resolvedPath = [] ∨ resolvedPath = lit "." ∨ startsWith resolvedPath "../" ∨ resolvedPath = lit ".." ∨
        posix.isAbsolute resolvedPath then
      .error (lit "Asset path \"" ++ rawAssetPath ++ lit "\" escapes the docs directory for \"" ++
        sourceRelativePath ++ lit "\".")
    else .ok (some resolvedPath)

/-- `none` is a `URIError`. -/
def buildBlogAssetUrl (relativeDocsPath : Units) : Option Units :=
  ((posix.segments relativeDocsPath).mapM encodeURIComponent).map fun segments =>
    lit "/blogs/assets/" ++ posix.text segments

/-! ### Paths -/

/-- What comes back is a normal path that the guard lets through. -/
theorem resolveDocAssetPath_some {sep : UInt16} {source raw path : Units}
    (h : resolveDocAssetPath sep source raw = .ok (some path)) :
    ∃ given, path = posix.normalize given ∧ path ≠ posix.up ∧ ¬ posix.up ++ [posix.slash] <+: path ∧
      posix.isAbsolute path = false := by
  unfold resolveDocAssetPath at h
  dsimp only at h
  split at h
  · cases h
  · split at h
    · cases h
    · rw [← apply_ite posix.normalize] at h
      generalize (if startsWith raw "/" = true then (withoutSuffix raw).dropWhile (· = posix.slash)
        else posix.join [posix.dirname (toPosixPath sep source), withoutSuffix raw]) = given at h
      split at h
      · cases h
      · next hguard =>
        obtain rfl := Option.some.inj (Except.ok.inj h)
        simp only [not_or, Bool.not_eq_true] at hguard
        obtain ⟨-, -, hbegin, hup, habsolute⟩ := hguard
        refine ⟨given, rfl, hup, fun hprefix => ?_, habsolute⟩
        exact absurd (List.isPrefixOf_iff_prefix.mpr hprefix) (ne_true_of_eq_false hbegin)

/-! ### Addresses -/

/-- The parts between slashes have no lone surrogates if the whole has none. -/
theorem not_lone_of_text {segments : List Units} (h : ¬ LoneSurrogate (posix.text segments)) :
    ∀ segment ∈ segments, ¬ LoneSurrogate segment := by
  induction segments with
  | nil => nofun
  | cons segment segments ih =>
      cases segments with
      | nil =>
          refine List.forall_mem_singleton.mpr ?_
          rwa [PathChars.text, List.intercalate_singleton] at h
      | cons next rest =>
          rw [PathChars.text, List.intercalate_cons_cons] at h
          refine List.forall_mem_cons.mpr ⟨fun hlone => h ?_, ih fun hlone => h ?_⟩
          · rw [List.append_assoc]
            refine hlone.before ?_
            rintro _ ⟨⟩
            decide
          · refine hlone.behind ?_
            rw [List.getLast?_concat]
            rintro _ ⟨⟩
            decide

theorem mapM_encode {segments : List Units} (h : ∀ segment ∈ segments, ¬ LoneSurrogate segment) :
    ∃ written, segments.mapM encodeURIComponent = some written ∧
      written.mapM decodeURIComponent = some segments ∧ (∀ segment ∈ written, posix.slash ∉ segment) ∧
        written.length = segments.length := by
  induction segments with
  | nil => exact ⟨[], rfl, rfl, nofun, rfl⟩
  | cons segment segments ih =>
      rw [List.forall_mem_cons] at h
      obtain ⟨written, hencode, hdecode, hslash, hlength⟩ := ih h.2
      obtain ⟨first, hfirst, hback⟩ := decode_encode h.1
      refine ⟨first :: written, ?_, ?_, List.forall_mem_cons.mpr ⟨slash_not_mem_encode hfirst, hslash⟩,
        congrArg (· + 1) hlength⟩
      · rw [List.mapM_cons, hfirst, hencode]
        rfl
      · rw [List.mapM_cons, hback, hdecode]
        rfl

theorem buildBlogAssetUrl_eq {path : Units} (h : ¬ LoneSurrogate path) : ∃ written,
    buildBlogAssetUrl path = some (lit "/blogs/assets/" ++ written) ∧
      (posix.segments written).mapM decodeURIComponent = some (posix.segments path) := by
  have hpath : posix.text (posix.segments path) = path := List.intercalate_splitOn posix.slash
  obtain ⟨written, hencode, hdecode, hslash, hlength⟩ := mapM_encode (not_lone_of_text (hpath.symm ▸ h))
  have hne : written ≠ [] := by
    rintro rfl
    exact List.splitOn_ne_nil posix.slash path (List.length_eq_zero_iff.mp hlength.symm)
  refine ⟨posix.text written, ?_, ?_⟩
  · rw [buildBlogAssetUrl, hencode]
    rfl
  · rw [PathChars.segments, PathChars.text, List.splitOn_intercalate posix.slash hslash hne, hdecode]

/-- For every page and every text in it: what comes back leads to the docs root or below it, and its
address names the same segments. -/
theorem resolveDocAssetPath_inside (sep : UInt16) (source raw path : Units)
    (h : resolveDocAssetPath sep source raw = .ok (some path)) :
    posix.Inside path ∧
      (∀ root, posix.isAbsolute root = true →
        posix.names (posix.join [root, path]) = posix.names root ++ posix.names path) ∧
      (¬ LoneSurrogate path → ∃ written, buildBlogAssetUrl path = some (lit "/blogs/assets/" ++ written) ∧
        (posix.segments written).mapM decodeURIComponent = some (posix.segments path)) := by
  obtain ⟨given, rfl, hup, hbegin, habsolute⟩ := resolveDocAssetPath_some h
  have hinside := PathChars.inside_normalize habsolute hup hbegin
  exact ⟨hinside, fun root hroot => PathChars.names_join hroot hinside, buildBlogAssetUrl_eq⟩

theorem resolveDocAssetPath_inside_image :
    resolveDocAssetPath 47 (lit "guides/setup.md") (lit "../images/./a b.png?v=2") = .ok (some (lit "images/a b.png")) ∧
      posix.Inside (lit "images/a b.png") ∧
      ∃ written, buildBlogAssetUrl (lit "images/a b.png") = some (lit "/blogs/assets/" ++ written) ∧
        (posix.segments written).mapM decodeURIComponent = some [lit "images", lit "a b.png"] := by
  have hresolve : resolveDocAssetPath 47 (lit "guides/setup.md") (lit "../images/./a b.png?v=2") =
      .ok (some (lit "images/a b.png")) := by
    decide
  obtain ⟨hinside, -, haddress⟩ := resolveDocAssetPath_inside _ _ _ _ hresolve
  have hlone : ¬ LoneSurrogate (lit "images/a b.png") := by
    have hall : (lit "images/a b.png").all (fun u => !isHigh u && !isLow u) = true := by decide
    rintro ⟨before, u, after, heq, hu⟩
    have hmem : u ∈ lit "images/a b.png" := heq ▸ List.mem_append_right _ List.mem_cons_self
    obtain ⟨hhigh, hlow⟩ := Bool.and_eq_true_iff.mp (List.all_eq_true.mp hall u hmem)
    rw [Bool.not_eq_true'] at hhigh hlow
    obtain ⟨hu, -⟩ | ⟨hu, -⟩ := hu
    · exact absurd hu (ne_true_of_eq_false hhigh)
    · exact absurd hu (ne_true_of_eq_false hlow)
  have hsegments : posix.segments (lit "images/a b.png") = [lit "images", lit "a b.png"] := by decide
  exact ⟨hresolve, hinside, hsegments ▸ haddress hlone⟩

end Stratus.Frontend.Blogs
