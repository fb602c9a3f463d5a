import Mathlib.Data.List.Basic

/-! A stream that is a list of frames one after the other, of which some first part
has arrived. -/
namespace Stratus.Lib

variable {α : Type*}

/-- Of the first `n` elements of the stream, how many belong to a frame that is not
yet complete. -/
def remainder : List (List α) → Nat → Nat
  | [], n => n
  | frame :: rest, n => if frame.length ≤ n then remainder rest (n - frame.length) else n

theorem remainder_le (frames : List (List α)) (n : Nat) : remainder frames n ≤ n := by
  induction frames generalizing n with
  | nil => exact Nat.le_refl _
  | cons frame rest ih =>
      rw [remainder]
      split
      · exact Nat.le_trans (ih _) (Nat.sub_le n _)
      · exact Nat.le_refl _

/-- The frames that have been taken off the stream make no difference to the rest. -/
theorem remainder_drop (frames : List (List α)) (k n : Nat) :
    remainder frames ((frames.take k).flatten.length + n) = remainder (frames.drop k) n := by
  induction frames generalizing k with
  | nil => simp [remainder]
  | cons frame rest ih =>
      cases k with
      | zero => simp
      | succ k =>
          simp only [List.take_succ_cons, List.flatten_cons, List.length_append, List.drop_succ_cons,
            remainder]
          rw [if_pos (by omega), ← ih k]
          congr 1
          omega

/-- The frame after the first `k`, when its elements come next in the stream. -/
theorem drop_flatten_take (frames : List (List α)) (k : Nat) :
    frames.flatten.drop (frames.take k).flatten.length = (frames.drop k).flatten := by
  conv_lhs => rw [← List.take_append_drop k frames, List.flatten_append]
  rw [List.take_append_drop, List.drop_left]

/-- When all frames have one length, the frame `k` is found there. -/
theorem drop_flatten_mul {n : Nat} {frames : List (List α)} (h : ∀ frame ∈ frames, frame.length = n)
    (k : Nat) : frames.flatten.drop (n * k) = (frames.drop k).flatten := by
  induction frames generalizing k with
  | nil => simp
  | cons frame rest ih =>
      cases k with
      | zero => rfl
      | succ k =>
          have hframe : frame.length = n := h frame List.mem_cons_self
          rw [List.flatten_cons, List.drop_succ_cons, Nat.mul_succ, Nat.add_comm, ← hframe,
            List.drop_length_add_append, hframe]
          exact ih (fun frame hmem => h frame (List.mem_cons_of_mem _ hmem)) k

theorem length_flatten_mul {n : Nat} {frames : List (List α)}
    (h : ∀ frame ∈ frames, frame.length = n) : frames.flatten.length = n * frames.length := by
  induction frames with
  | nil => rfl
  | cons frame rest ih =>
      rw [List.flatten_cons, List.length_append, h frame List.mem_cons_self,
        ih (fun frame hmem => h frame (List.mem_cons_of_mem _ hmem)), List.length_cons, Nat.mul_succ,
        Nat.add_comm]

/-! The frames carry values.  Those before number `k` have been read, and of the stream behind them
`buffered` has arrived and `later` is still to come. -/

section Encoded

variable {φ : Type*} {encode : φ → List α} {values : List φ} {k : Nat} {value : φ}
  {buffered later : List α}

theorem flatten_drop_of_getElem? (hvalue : values[k]? = some value) :
    ((values.drop k).map encode).flatten =
      encode value ++ ((values.drop (k + 1)).map encode).flatten := by
  obtain ⟨hlt, rfl⟩ := List.getElem?_eq_some_iff.mp hvalue
  rw [List.drop_eq_getElem_cons hlt, List.map_cons, List.flatten_cons]

theorem exists_of_buffered (hbytes : buffered ++ later = ((values.drop k).map encode).flatten)
    (hbuffered : 0 < buffered.length) : ∃ value, values[k]? = some value := by
  by_contra hnone
  have hend : values.drop k = [] := by
    rw [List.drop_eq_nil_iff, ← List.getElem?_eq_none_iff]
    exact Option.eq_none_iff_forall_ne_some.mpr fun value hvalue => hnone ⟨value, hvalue⟩
  rw [hend, List.map_nil, List.flatten_nil] at hbytes
  rw [(List.append_eq_nil_iff.mp hbytes).1] at hbuffered
  exact Nat.lt_irrefl 0 hbuffered

/-- The first elements of the frame are in the buffer. -/
theorem take_buffered (hbytes : buffered ++ later = ((values.drop k).map encode).flatten)
    (hvalue : values[k]? = some value) {n : Nat} (hbuffered : n ≤ buffered.length)
    (hframe : n ≤ (encode value).length) : buffered.take n = (encode value).take n := by
  rw [flatten_drop_of_getElem? hvalue] at hbytes
  have htake := congrArg (List.take n) hbytes
  rwa [List.take_append_of_le_length hbuffered, List.take_append_of_le_length hframe] at htake

/-- The whole frame is. -/
theorem exists_rest (hbytes : buffered ++ later = ((values.drop k).map encode).flatten)
    (hvalue : values[k]? = some value) (hwhole : (encode value).length ≤ buffered.length) :
    ∃ rest, buffered = encode value ++ rest ∧
      rest ++ later = ((values.drop (k + 1)).map encode).flatten := by
  rw [flatten_drop_of_getElem? hvalue] at hbytes
  obtain ⟨rest, hrest⟩ : encode value <+: buffered :=
    List.prefix_of_prefix_length_le ⟨_, rfl⟩ ⟨later, hbytes⟩ hwhole
  rw [← hrest, List.append_assoc, List.append_cancel_left_eq] at hbytes
  exact ⟨rest, hrest.symm, hbytes⟩

/-- The values whose frames lie within the first `n` elements of the stream. -/
def whole (encode : φ → List α) : List φ → Nat → List φ
  | [], _ => []
  | value :: values, n =>
      if (encode value).length ≤ n then value :: whole encode values (n - (encode value).length) else []

theorem whole_prefix (encode : φ → List α) (values : List φ) (n : Nat) :
    whole encode values n <+: values := by
  induction values generalizing n with
  | nil => exact List.prefix_refl _
  | cons value values ih =>
      rw [whole]
      split
      · exact (List.prefix_cons_inj value).mpr (ih _)
      · exact List.nil_prefix

theorem length_whole_le (encode : φ → List α) (values : List φ) (n : Nat) :
    ((whole encode values n).map encode).flatten.length ≤ n := by
  induction values generalizing n with
  | nil => exact Nat.zero_le n
  | cons value values ih =>
      rw [whole]
      split
      · have hrest := ih (n - (encode value).length)
        rw [List.map_cons, List.flatten_cons, List.length_append]
        omega
      · exact Nat.zero_le n

theorem whole_mono {n m : Nat} (h : n ≤ m) : whole encode values n <+: whole encode values m := by
  induction values generalizing n m with
  | nil => exact List.prefix_refl _
  | cons value values ih =>
      rw [whole, whole]
      by_cases hn : (encode value).length ≤ n
      · rw [if_pos hn, if_pos (Nat.le_trans hn h), List.prefix_cons_inj]
        exact ih (Nat.sub_le_sub_right h _)
      · rw [if_neg hn]
        exact List.nil_prefix

theorem whole_append (first values : List φ) (n : Nat) :
    whole encode (first ++ values) ((first.map encode).flatten.length + n) =
      first ++ whole encode values n := by
  induction first with
  | nil => rw [List.map_nil, List.flatten_nil, List.length_nil, Nat.zero_add, List.nil_append,
      List.nil_append]
  | cons value first ih =>
      rw [List.cons_append, whole, List.map_cons, List.flatten_cons, List.length_append,
        if_pos (by omega), Nat.add_assoc, Nat.add_sub_cancel_left, ih, List.cons_append]

theorem whole_zero (hpos : ∀ value ∈ values, 0 < (encode value).length) : whole encode values 0 = [] := by
  cases values with
  | nil => rfl
  | cons value values => exact if_neg (Nat.not_le.mpr (hpos value List.mem_cons_self))

/-- With one more element there is at most one more value. -/
theorem whole_succ (hpos : ∀ value ∈ values, 0 < (encode value).length) (n : Nat) :
    whole encode values (n + 1) = whole encode values n ∨
      ∃ value ∈ values, whole encode values (n + 1) = whole encode values n ++ [value] := by
  induction values generalizing n with
  | nil => exact .inl rfl
  | cons value values ih =>
      have hrest := fun value hmem => hpos value (List.mem_cons_of_mem _ hmem)
      have hfirst := hpos value List.mem_cons_self
      rw [whole, whole]
      rcases Nat.lt_trichotomy (encode value).length (n + 1) with hlt | heq | hgt
      · rw [if_pos (by omega), if_pos (by omega),
          show n + 1 - (encode value).length = n - (encode value).length + 1 by omega]
        rcases ih hrest (n - (encode value).length) with hsame | ⟨more, hmem, hmore⟩
        · exact .inl (by rw [hsame])
        · exact .inr ⟨more, List.mem_cons_of_mem _ hmem, by rw [hmore, List.cons_append]⟩
      · rw [if_pos (by omega), if_neg (by omega), heq, Nat.sub_self, whole_zero hrest]
        exact .inr ⟨value, List.mem_cons_self, rfl⟩
      · rw [if_neg (by omega), if_neg (by omega)]
        exact .inl rfl

/-- What comes behind the end of the stream makes no difference. -/
theorem whole_snoc (hpos : 0 < (encode value).length) {n : Nat}
    (hn : n ≤ (values.map encode).flatten.length) :
    whole encode (values ++ [value]) n = whole encode values n := by
  induction values generalizing n with
  | nil =>
      obtain rfl : n = 0 := Nat.le_zero.mp hn
      exact if_neg (Nat.not_le.mpr hpos)
  | cons first values ih =>
      rw [List.map_cons, List.flatten_cons, List.length_append] at hn
      rw [List.cons_append, whole, whole]
      split
      · rw [ih (by omega)]
      · rfl

theorem whole_all (encode : φ → List α) (values : List φ) :
    whole encode values (values.map encode).flatten.length = values := by
  have hwhole : whole encode (values ++ []) ((values.map encode).flatten.length + 0) = values ++ [] :=
    whole_append values [] 0
  rwa [List.append_nil, Nat.add_zero] at hwhole

/-- The next value is not there as a whole. -/
theorem whole_eq_take (hshort : ∀ value ∈ values[k]?, buffered.length < (encode value).length) :
    whole encode values (((values.take k).map encode).flatten.length + buffered.length) =
      values.take k := by
  have hrest : whole encode (values.drop k) buffered.length = [] := by
    cases hdrop : values.drop k with
    | nil => rfl
    | cons value rest =>
        have hvalue : values[k]? = some value := by
          rw [← List.head?_drop, hdrop]
          rfl
        exact if_neg (Nat.not_le.mpr (hshort value hvalue))
  have hwhole : whole encode (values.take k ++ values.drop k) _ = _ :=
    whole_append (values.take k) (values.drop k) buffered.length
  rwa [List.take_append_drop, hrest, List.append_nil] at hwhole

end Encoded

end Stratus.Lib
