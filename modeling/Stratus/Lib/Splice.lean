import Mathlib.Data.List.Rotate
import Stratus.Lib.Frames

/-! Parts of an array that are overwritten, and arrays that are read around their end. -/
namespace Stratus.Lib

variable {α : Type*}

/-- The array with `x` written to it from a place on. -/
def splice (cells : List α) (place : Nat) (x : List α) : List α :=
  cells.take place ++ x ++ cells.drop (place + x.length)

theorem length_splice {cells x : List α} {place : Nat} (h : place + x.length ≤ cells.length) :
    (splice cells place x).length = cells.length := by
  simp only [splice, List.length_append, List.length_take, List.length_drop]
  omega

theorem splice_nil (cells : List α) (place : Nat) : splice cells place [] = cells := by
  simp [splice]

/-- What is in the array up to the end of the part. -/
theorem take_splice {cells x : List α} {place : Nat} (h : place ≤ cells.length) :
    (splice cells place x).take (place + x.length) = cells.take place ++ x := by
  refine List.take_left' ?_
  rw [List.length_append, List.length_take, Nat.min_eq_left h]

/-- One part is written right after another. -/
theorem splice_append {cells x y : List α} {place : Nat} (h : place ≤ cells.length) :
    splice (splice cells place x) (place + x.length) y = splice cells place (x ++ y) := by
  have hlength : (cells.take place ++ x).length = place + x.length := by
    rw [List.length_append, List.length_take]
    omega
  rw [splice, splice, splice, List.take_left' hlength, List.length_append, ← Nat.add_assoc,
    ← List.drop_drop, List.drop_left' hlength, List.drop_drop, List.append_assoc (cells.take place)]

/-- `copied` elements of `src` from a place on. -/
def slice (src : List α) (place copied : Nat) : List α := (src.drop place).take copied

theorem length_slice {src : List α} {place copied : Nat} (h : place + copied ≤ src.length) :
    (slice src place copied).length = copied := by
  rw [slice, List.length_take, List.length_drop]
  omega

theorem slice_append (src : List α) (place copied more : Nat) :
    slice src place copied ++ slice src (place + copied) more = slice src place (copied + more) := by
  rw [slice, slice, slice, ← List.drop_drop, ← List.take_add]

/-- What comes after the part makes no difference. -/
theorem slice_of_append {src : List α} {place copied : Nat} (h : place + copied ≤ src.length)
    (more : List α) : slice (src ++ more) place copied = slice src place copied := by
  rw [slice, slice, List.drop_append_of_le_length (by omega), List.take_append_of_le_length]
  rw [List.length_drop]
  omega

/-! ### Around the end -/

variable {cells x : List α} {start n : Nat}

theorem rotate_of_le (h : start ≤ cells.length) :
    cells.rotate start = cells.drop start ++ cells.take start :=
  List.rotate_eq_drop_append_take h

/-- Two copies read around the end. -/
theorem slice_wrap (hstart : start ≤ cells.length) (hn : n ≤ cells.length) :
    slice cells start (min (cells.length - start) n) ++
      slice cells 0 (n - min (cells.length - start) n) = (cells.rotate start).take n := by
  unfold slice
  rw [rotate_of_le hstart, List.take_append, List.length_drop, List.drop_zero]
  rcases Nat.le_total n (cells.length - start) with hle | hle
  · rw [Nat.min_eq_right hle, Nat.sub_self, Nat.sub_eq_zero_of_le hle, List.take_zero, List.take_zero]
  · have hlength : (cells.drop start).length = cells.length - start := List.length_drop
    rw [Nat.min_eq_left hle, List.take_take, Nat.min_eq_left (by omega),
      List.take_of_length_le hlength.le, List.take_of_length_le (hlength.le.trans hle)]

/-- Two copies write around the end. -/
theorem splice_wrap (hstart : start ≤ cells.length) (hx : x.length ≤ cells.length) :
    (splice (splice cells start (x.take (cells.length - start))) 0
      (x.drop (cells.length - start))).rotate start = x ++ (cells.rotate start).drop x.length := by
  rw [rotate_of_le hstart, List.drop_append, List.length_drop]
  rcases Nat.le_total x.length (cells.length - start) with hle | hle
  · have hlength : (splice cells start x).length = cells.length := length_splice (by omega)
    rw [List.take_of_length_le hle, List.drop_eq_nil_of_le hle, splice_nil, rotate_of_le (by omega),
      Nat.sub_eq_zero_of_le hle, List.drop_zero, List.drop_drop]
    have hprefix : (cells.take start).length = start := by rw [List.length_take]; omega
    have hdrop : (splice cells start x).drop start = x ++ cells.drop (start + x.length) := by
      rw [splice, List.append_assoc]
      exact List.drop_left' hprefix
    have htake : (splice cells start x).take start = cells.take start := by
      rw [splice, List.append_assoc]
      exact List.take_left' hprefix
    rw [hdrop, htake, List.append_assoc]
  · obtain ⟨y, hy⟩ : ∃ y, y = x.drop (cells.length - start) := ⟨_, rfl⟩
    have hlength : y.length = x.length - (cells.length - start) := by rw [hy, List.length_drop]
    have hprefix : (cells.take start).length = start := by rw [List.length_take]; omega
    have hfirst : splice cells start (x.take (cells.length - start)) =
        cells.take start ++ x.take (cells.length - start) := by
      rw [splice, List.length_take, List.drop_eq_nil_of_le (by omega), List.append_nil]
    have hboth : splice (cells.take start ++ x.take (cells.length - start)) 0 y =
        (y ++ (cells.take start).drop y.length) ++ x.take (cells.length - start) := by
      rw [splice, List.take_zero, List.nil_append, Nat.zero_add, List.append_assoc,
        List.drop_append_of_le_length (by omega)]
    have hfront : (y ++ (cells.take start).drop y.length).length = start := by
      rw [List.length_append, List.length_drop, hprefix]
      omega
    have hnone : (cells.drop start).drop x.length = [] :=
      List.drop_eq_nil_of_le (List.length_drop.le.trans hle)
    rw [← hy, hfirst, hboth, rotate_of_le (by rw [List.length_append, hfront]; omega),
      List.drop_left' hfront, List.take_left' hfront, hnone, List.nil_append, ← hlength,
      ← List.append_assoc, hy, List.take_append_drop]

/-! ### The part of a ring that is in use -/

/-- `n` elements from `start` on, around the end. -/
def window (cells : List α) (start n : Nat) : List α := (cells.rotate start).take n

theorem length_window (hn : n ≤ cells.length) : (window cells start n).length = n := by
  rw [window, List.length_take, List.length_rotate]
  omega

theorem window_drop {k : Nat} (hk : k ≤ n) (hn : n ≤ cells.length) :
    (window cells start n).drop k = window cells ((start + k) % cells.length) (n - k) := by
  have hlength : (cells.rotate start).length = cells.length := List.length_rotate cells start
  have hrotate : (cells.rotate start).rotate k =
      (cells.rotate start).drop k ++ (cells.rotate start).take k := rotate_of_le (by omega)
  rw [window, window, List.rotate_mod, ← List.rotate_rotate, hrotate, List.drop_take,
    List.take_append_of_le_length (by rw [List.length_drop]; omega)]

/-- What is written right after the part in use is added to it. -/
theorem window_splice {w : Nat} (hw : w = (start + n) % cells.length) (hpos : 0 < cells.length)
    (hn : n + x.length ≤ cells.length) :
    window (splice (splice cells w (x.take (cells.length - w))) 0 (x.drop (cells.length - w))) start
      (n + x.length) = window cells start n ++ x := by
  have hlt : w < cells.length := hw ▸ Nat.mod_lt _ hpos
  obtain ⟨cells', hcells'⟩ : ∃ cells', cells' =
    splice (splice cells w (x.take (cells.length - w))) 0 (x.drop (cells.length - w)) := ⟨_, rfl⟩
  have hwrap : cells'.rotate w = x ++ (cells.rotate w).drop x.length :=
    hcells' ▸ splice_wrap (Nat.le_of_lt hlt) (by omega)
  have hlength' : cells'.length = cells.length := by
    rw [← List.length_rotate cells' w, hwrap, List.length_append, List.length_drop, List.length_rotate]
    omega
  have hlen : (cells.rotate start).length = cells.length := List.length_rotate cells start
  have hlen' : (cells'.rotate start).length = cells.length := by rw [List.length_rotate, hlength']
  have hold : cells.rotate w = (cells.rotate start).drop n ++ (cells.rotate start).take n := by
    rw [hw, List.rotate_mod, ← List.rotate_rotate, rotate_of_le (by omega)]
  have hnew : cells'.rotate w = (cells'.rotate start).drop n ++ (cells'.rotate start).take n := by
    rw [hw, ← hlength', List.rotate_mod, ← List.rotate_rotate, rotate_of_le (by omega)]
  rw [hwrap, hold, List.drop_append_of_le_length (by rw [List.length_drop]; omega),
    ← List.append_assoc] at hnew
  obtain ⟨hdrop, htake⟩ := List.append_inj hnew (by
    simp only [List.length_append, List.length_drop]
    omega)
  rw [← hcells', window, window, List.take_add, ← htake, ← hdrop]
  congr 1
  exact List.take_left

/-! ### Items of several bytes -/

variable {size : Nat} {frames items : List (List α)}

theorem take_flatten_mul (h : ∀ frame ∈ frames, frame.length = size) (k : Nat) :
    frames.flatten.take (size * k) = (frames.take k).flatten := by
  have hsplit : frames.flatten = (frames.take k).flatten ++ (frames.drop k).flatten := by
    rw [← List.flatten_append, List.take_append_drop]
  have hdrop := drop_flatten_mul h k
  have hboth := List.take_append_drop (size * k) frames.flatten
  rw [hdrop] at hboth
  exact List.append_cancel_right (hboth.trans hsplit)

theorem slice_flatten (h : ∀ frame ∈ frames, frame.length = size) (place copied : Nat) :
    slice frames.flatten (size * place) (size * copied) = (slice frames place copied).flatten := by
  rw [slice, slice, drop_flatten_mul h,
    take_flatten_mul (fun frame hmem => h frame (List.mem_of_mem_drop hmem))]

theorem splice_flatten (h : ∀ frame ∈ frames, frame.length = size)
    (hitems : ∀ item ∈ items, item.length = size) (place : Nat) :
    splice frames.flatten (size * place) items.flatten = (splice frames place items).flatten := by
  rw [splice, splice, take_flatten_mul h, length_flatten_mul hitems, ← Nat.mul_add,
    drop_flatten_mul h, List.flatten_append, List.flatten_append]

/-- Every array is one of items, when its length fits. -/
theorem exists_flatten {bytes : List α} {count : Nat} (h : bytes.length = size * count) :
    ∃ frames : List (List α), frames.length = count ∧ (∀ frame ∈ frames, frame.length = size) ∧
      bytes = frames.flatten := by
  induction count generalizing bytes with
  | zero => exact ⟨[], rfl, nofun, List.length_eq_zero_iff.mp h⟩
  | succ count ih =>
      rw [Nat.mul_succ] at h
      have hrest : (bytes.drop size).length = size * count := by
        rw [List.length_drop]
        omega
      obtain ⟨frames, hlength, hsized, hflatten⟩ := ih hrest
      refine ⟨bytes.take size :: frames, ?_, ?_, ?_⟩
      · rw [List.length_cons, hlength]
      · rintro frame (_ | ⟨_, hmem⟩)
        · rw [List.length_take]
          omega
        · exact hsized frame hmem
      · rw [List.flatten_cons, ← hflatten, List.take_append_drop]

/-- The first items of an array. -/
def cut (size : Nat) : Nat → List α → List (List α)
  | 0, _ => []
  | count + 1, bytes => bytes.take size :: cut size count (bytes.drop size)

theorem length_cut (count : Nat) (bytes : List α) : (cut size count bytes).length = count := by
  induction count generalizing bytes with
  | zero => rfl
  | succ count ih => rw [cut, List.length_cons, ih]

/-- The items that are in an array are found there, whatever follows them. -/
theorem cut_flatten (h : ∀ frame ∈ frames, frame.length = size) (more : List α) :
    cut size frames.length (frames.flatten ++ more) = frames := by
  induction frames with
  | nil => rfl
  | cons frame frames ih =>
      have hframe : frame.length = size := h frame List.mem_cons_self
      rw [List.length_cons, cut, List.flatten_cons, List.append_assoc, List.take_left' hframe,
        List.drop_left' hframe, ih fun f hmem => h f (List.mem_cons_of_mem _ hmem)]

theorem flatten_cut {bytes : List α} {count : Nat} (h : bytes.length = size * count) :
    (cut size count bytes).flatten = bytes ∧ ∀ frame ∈ cut size count bytes, frame.length = size := by
  obtain ⟨frames, rfl, hsized, rfl⟩ := exists_flatten h
  have hcut := cut_flatten hsized []
  rw [List.append_nil] at hcut
  rw [hcut]
  exact ⟨rfl, hsized⟩

theorem mem_splice {place : Nat} {a : α} (h : a ∈ splice cells place x) : a ∈ cells ∨ a ∈ x := by
  rw [splice, List.mem_append, List.mem_append] at h
  rcases h with (h | h) | h
  · exact .inl (List.mem_of_mem_take h)
  · exact .inr h
  · exact .inl (List.mem_of_mem_drop h)

end Stratus.Lib
