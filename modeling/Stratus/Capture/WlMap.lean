import Mathlib.Data.List.Basic
import Mathlib.Tactic.SplitIfs

/-! libwayland's object maps, as a proxy session uses them: created for the client
side and never asked for a free id.  An entry is `none` when it holds `NULL` or has
been removed; `wl_map_lookup` does not tell the two apart. -/
namespace Stratus.Capture

/-- `WL_SERVER_ID_START`. -/
def serverIdStart : Nat := 0xff000000

/-- `WL_MAP_MAX_OBJECTS`. -/
def maxObjects : Nat := 0x00f00000

structure WlMap (α : Type*) where
  client : List (Option α)
  server : List (Option α)

namespace WlMap

variable {α : Type*}

/-- `wl_map_lookup`. -/
def lookup (m : WlMap α) (i : Nat) : Option α :=
  if i < serverIdStart then m.client[i]?.join else m.server[i - serverIdStart]?.join

/-- The part of `wl_map_insert_at` after the array has been chosen. -/
def insertEntry (entries : List (Option α)) (i : Nat) (data : Option α) :
    Option (List (Option α)) :=
  if maxObjects < i then none
  else if entries.length < i then none
  else if entries.length = i then some (entries ++ [data])
  else some (entries.set i data)

/-- `wl_map_insert_at`, with `none` for a failure. -/
def insertAt (m : WlMap α) (i : Nat) (data : Option α) : Option (WlMap α) :=
  if i < serverIdStart then
    (insertEntry m.client i data).map fun entries => { m with client := entries }
  else
    (insertEntry m.server (i - serverIdStart) data).map fun entries => { m with server := entries }

/-- `wl_map_reserve_new`, whose errors the caller ignores. -/
def reserveNew (m : WlMap α) (i : Nat) : WlMap α :=
  if i < serverIdStart then m
  else if maxObjects < i - serverIdStart then m
  else if m.server.length = i - serverIdStart then { m with server := m.server ++ [none] }
  else m

/-- `wl_map_remove`; an id of the server's range is left alone. -/
def remove (m : WlMap α) (i : Nat) : WlMap α :=
  if i < serverIdStart then { m with client := m.client.set i none } else m

theorem insertEntry_get {entries entries' : List (Option α)} {i : Nat} {data : Option α}
    (h : insertEntry entries i data = some entries') (j : Nat) :
    entries'[j]?.join = if j = i then data else entries[j]?.join := by
  unfold insertEntry at h
  split_ifs at h with hmax hlt heq
  · cases h
    by_cases hj : j = i
    · rw [if_pos hj, hj, ← heq, List.getElem?_concat_length]
      rfl
    · rw [if_neg hj]
      by_cases hlow : j < entries.length
      · rw [List.getElem?_append_left hlow]
      · rw [List.getElem?_eq_none (by simp; omega), List.getElem?_eq_none (by omega)]
  · cases h
    rw [List.getElem?_set]
    by_cases hj : j = i
    · subst hj
      simp only [if_true, if_pos (show j < entries.length by omega)]
      rfl
    · rw [if_neg hj, if_neg (Ne.symm hj)]

/-- An entry that has been written can be written again. -/
theorem insertAt_again {m m' : WlMap α} {i : Nat} {data : Option α}
    (h : m.insertAt i data = some m') (data' : Option α) : ∃ m'', m'.insertAt i data' = some m'' := by
  have hentry {entries entries' : List (Option α)} {j : Nat}
      (hj : insertEntry entries j data = some entries') :
      ∃ entries'', insertEntry entries' j data' = some entries'' := by
    unfold insertEntry at hj ⊢
    split_ifs at hj with hmax hlt heq <;> cases hj
    · rw [if_neg hmax, if_neg (by simp; omega), if_neg (by simp; omega)]
      exact ⟨_, rfl⟩
    · rw [if_neg hmax, if_neg (by simpa using hlt), if_neg (by simpa using heq)]
      exact ⟨_, rfl⟩
  unfold insertAt at h ⊢
  split_ifs at h ⊢ with hi
  · obtain ⟨entries, hentries, rfl⟩ := Option.map_eq_some_iff.mp h
    obtain ⟨entries', hentries'⟩ := hentry hentries
    exact ⟨_, by rw [hentries']; rfl⟩
  · obtain ⟨entries, hentries, rfl⟩ := Option.map_eq_some_iff.mp h
    obtain ⟨entries', hentries'⟩ := hentry hentries
    exact ⟨_, by rw [hentries']; rfl⟩

theorem lookup_insertAt {m m' : WlMap α} {i : Nat} {data : Option α}
    (h : m.insertAt i data = some m') (j : Nat) :
    m'.lookup j = if j = i then data else m.lookup j := by
  unfold insertAt at h
  split_ifs at h with hi
  · obtain ⟨entries, hentries, rfl⟩ := Option.map_eq_some_iff.mp h
    unfold lookup
    split_ifs with hj heq heq
    · rw [insertEntry_get hentries, if_pos heq]
    · rw [insertEntry_get hentries, if_neg heq]
    · omega
    · rfl
  · obtain ⟨entries, hentries, rfl⟩ := Option.map_eq_some_iff.mp h
    unfold lookup
    split_ifs with hj heq heq
    · omega
    · rfl
    · rw [insertEntry_get hentries, if_pos (by omega)]
    · rw [insertEntry_get hentries, if_neg (by omega)]

/-- The client's array stays within the limit. -/
theorem insertAt_client_le {m m' : WlMap α} {i : Nat} {data : Option α}
    (h : m.insertAt i data = some m') (hle : m.client.length ≤ maxObjects + 1) :
    m'.client.length ≤ maxObjects + 1 := by
  unfold insertAt at h
  split_ifs at h with hi
  · obtain ⟨entries, hentries, rfl⟩ := Option.map_eq_some_iff.mp h
    unfold insertEntry at hentries
    split_ifs at hentries with hmax hlt heq <;> cases hentries
    · simp only [List.length_append, List.length_singleton]
      omega
    · simpa using hle
  · obtain ⟨entries, hentries, rfl⟩ := Option.map_eq_some_iff.mp h
    exact hle

@[simp]
theorem client_remove_length (m : WlMap α) (i : Nat) :
    (m.remove i).client.length = m.client.length := by
  unfold remove
  split
  · exact List.length_set
  · rfl

@[simp]
theorem lookup_reserveNew (m : WlMap α) (i j : Nat) : (m.reserveNew i).lookup j = m.lookup j := by
  unfold reserveNew
  split_ifs with hi hmax hlen
  · rfl
  · rfl
  · unfold lookup
    split_ifs with hj
    · rfl
    · by_cases hlow : j - serverIdStart < m.server.length
      · rw [List.getElem?_append_left hlow]
      · rw [List.getElem?_append_right (by omega), List.getElem?_eq_none (l := m.server) (by omega)]
        cases j - serverIdStart - m.server.length <;> rfl
  · rfl

theorem lookup_remove {m : WlMap α} {i : Nat} (hi : i < serverIdStart) (j : Nat) :
    (m.remove i).lookup j = if j = i then none else m.lookup j := by
  unfold remove lookup
  simp only [if_pos hi, List.getElem?_set]
  by_cases hj : j = i
  · subst hj
    simp only [if_pos hi, if_true]
    split <;> rfl
  · simp only [if_neg hj, if_neg (Ne.symm hj)]

/-- The server's part of an empty map. -/
theorem server_eq_none {m : WlMap α} (h : ∀ i, m.lookup i = none) (idx : Nat) :
    m.server[idx]?.join = none := by
  rw [← h (serverIdStart + idx), lookup, if_neg (by omega), Nat.add_sub_cancel_left]

/-- Every id that may be in use. -/
def ids (m : WlMap α) : List Nat :=
  List.range m.client.length ++ (List.range m.server.length).map (serverIdStart + ·)

theorem mem_ids {m : WlMap α} {id : Nat} {a : α} (h : m.lookup id = some a) :
    id ∈ m.ids := by
  unfold ids
  rw [List.mem_append, List.mem_range]
  unfold lookup at h
  split at h
  · obtain ⟨hlt, -⟩ := List.getElem?_eq_some_iff.mp (Option.join_eq_some_iff.mp h)
    exact .inl hlt
  · next hge =>
    obtain ⟨hlt, -⟩ := List.getElem?_eq_some_iff.mp (Option.join_eq_some_iff.mp h)
    refine .inr (List.mem_map.mpr ⟨id - serverIdStart, List.mem_range.mpr hlt, ?_⟩)
    omega

end WlMap

end Stratus.Capture
