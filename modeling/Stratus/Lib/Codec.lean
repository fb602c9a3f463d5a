import Mathlib.Data.List.Forall2

/-! Values that are written one after the other in front of an input, each as its field `δ` asks
for, and read back in the same order. -/
namespace Stratus.Lib

variable {δ α σ ε κ : Type*}

def readFields (read : δ → σ → Except ε (α × σ)) : List δ → σ → Except ε (List α × σ)
  | [], s => .ok ([], s)
  | d :: fields, s =>
      match read d s with
      | .error e => .error e
      | .ok (a, s) =>
          match readFields read fields s with
          | .error e => .error e
          | .ok (values, s) => .ok (a :: values, s)

theorem readFields_cons {read : δ → σ → Except ε (α × σ)} {d : δ} {fields : List δ} {s s' : σ}
    {values : List α} :
    readFields read (d :: fields) s = .ok (values, s') ↔ ∃ a rest t, values = a :: rest ∧
      read d s = .ok (a, t) ∧ readFields read fields t = .ok (rest, s') := by
  rw [readFields]
  constructor
  · intro h
    split at h
    · cases h
    · next a t hread =>
      split at h
      · cases h
      · next rest s'' hrest =>
        cases h
        exact ⟨a, rest, t, rfl, hread, hrest⟩
  · rintro ⟨a, rest, t, rfl, hread, hrest⟩
    rw [hread]
    dsimp only
    rw [hrest]

/-- The first fields, then the others. -/
theorem readFields_append {read : δ → σ → Except ε (α × σ)} {fields fields' : List δ}
    {values values' : List α} {s s' s'' : σ} (h : readFields read fields s = .ok (values, s'))
    (h' : readFields read fields' s' = .ok (values', s'')) :
    readFields read (fields ++ fields') s = .ok (values ++ values', s'') := by
  induction fields generalizing values s with
  | nil =>
      cases h
      exact h'
  | cons d fields ih =>
      obtain ⟨a, rest, t, rfl, hread, hrest⟩ := readFields_cons.mp h
      exact readFields_cons.mpr ⟨a, rest ++ values', t, rfl, hread, ih hrest⟩

/-- A change to the input that no field sees. -/
theorem readFields_map {read : δ → σ → Except ε (α × σ)} {f : σ → σ}
    (hf : ∀ d a s t, read d s = .ok (a, t) → read d (f s) = .ok (a, f t)) {fields : List δ}
    {values : List α} {s s' : σ} (h : readFields read fields s = .ok (values, s')) :
    readFields read fields (f s) = .ok (values, f s') := by
  induction fields generalizing values s with
  | nil =>
      cases h
      rfl
  | cons d fields ih =>
      obtain ⟨a, rest, t, rfl, hread, hrest⟩ := readFields_cons.mp h
      exact readFields_cons.mpr ⟨a, rest, f t, rfl, hf d a s t hread, ih hrest⟩

/-- What is written for a valid value is read as this value, and no more is taken. -/
structure Codec (δ α σ ε : Type*) where
  valid : δ → α → Prop
  write : δ → α → σ → σ
  read : δ → σ → Except ε (α × σ)
  read_write : ∀ {d a}, valid d a → ∀ s, read d (write d a s) = .ok (a, s)

namespace Codec

variable (C : Codec δ α σ ε)

def writeFields (values : List (δ × α)) (s : σ) : σ :=
  values.foldr (fun value s => C.write value.1 value.2 s) s

/-- There is a value for each field. -/
def Valid (fields : List δ) (values : List α) : Prop := List.Forall₂ C.valid fields values

/-- `read` may accept more than `write` produces, but what it takes off the input makes as much of
a difference to `measure` as the value would when it is written. -/
structure Measured (κ : Type*) where
  measure : σ → κ
  read_sound : ∀ {d a s s'}, C.read d s = .ok (a, s') →
    C.valid d a ∧ measure (C.write d a s') = measure s
  measure_write : ∀ d a {s s'}, measure s = measure s' →
    measure (C.write d a s) = measure (C.write d a s')

variable {C}

/-- What has been written is read again, whatever follows it. -/
theorem readFields_writeFields {fields : List δ} {values : List α} (h : C.Valid fields values)
    (s : σ) : readFields C.read fields (C.writeFields (fields.zip values) s) = .ok (values, s) := by
  induction h with
  | nil => rfl
  | cons hvalid _ ih =>
      rw [List.zip_cons_cons]
      exact readFields_cons.mpr ⟨_, _, _, rfl, C.read_write hvalid _, ih⟩

/-- What has been read can be written again. -/
theorem readFields_sound (M : C.Measured κ) {fields : List δ} {values : List α} {s s' : σ}
    (h : readFields C.read fields s = .ok (values, s')) :
    C.Valid fields values ∧ M.measure (C.writeFields (fields.zip values) s') = M.measure s := by
  induction fields generalizing values s with
  | nil =>
      cases h
      exact ⟨.nil, rfl⟩
  | cons d fields ih =>
      obtain ⟨a, rest, t, rfl, hread, hrest⟩ := readFields_cons.mp h
      obtain ⟨hvalid, hmeasure⟩ := M.read_sound hread
      obtain ⟨hvalids, hmeasures⟩ := ih hrest
      refine ⟨.cons hvalid hvalids, ?_⟩
      rw [List.zip_cons_cons, ← hmeasure]
      exact M.measure_write d a hmeasures

end Codec

end Stratus.Lib
