import Stratus.Lib.Splice

/-! A stream that is cut to blocks of one size, and what is left behind the last of them. -/
namespace Stratus.Lib

variable {α : Type*} {size : Nat}

/-- The blocks that are complete. -/
def blocks (size : Nat) (stream : List α) : List (List α) := cut size (stream.length / size) stream

/-- The elements behind them. -/
def leftover (size : Nat) (stream : List α) : List α := stream.drop (size * (stream.length / size))

theorem cut_append {count : Nat} {stream : List α} (h : size * count ≤ stream.length) (x : List α) :
    cut size count (stream ++ x) = cut size count stream := by
  induction count generalizing stream with
  | zero => rfl
  | succ count ih =>
      rw [Nat.mul_succ] at h
      rw [cut, cut, List.take_append_of_le_length (by omega), List.drop_append_of_le_length (by omega),
        ih (by rw [List.length_drop]; omega)]

theorem cut_succ (count : Nat) (stream : List α) :
    cut size (count + 1) stream =
      cut size count stream ++ [(stream.drop (size * count)).take size] := by
  induction count generalizing stream with
  | zero => simp [cut]
  | succ count ih =>
      rw [cut, ih, cut, List.drop_drop, Nat.mul_succ, Nat.add_comm]
      rfl

section Stream

variable (stream : List α)

theorem length_leftover : (leftover size stream).length = stream.length % size := by
  rw [leftover, List.length_drop]
  have hsplit := Nat.div_add_mod stream.length size
  omega

/-- The blocks are cut out of a part of the stream that they fill. -/
theorem blocks_eq_cut : ∃ whole, whole.length = size * (stream.length / size) ∧
    whole ++ leftover size stream = stream ∧
    blocks size stream = cut size (stream.length / size) whole := by
  have hle : size * (stream.length / size) ≤ stream.length := Nat.mul_div_le _ _
  have hlength : (stream.take (size * (stream.length / size))).length =
      size * (stream.length / size) := by
    rw [List.length_take]
    omega
  refine ⟨_, hlength, List.take_append_drop _ _, ?_⟩
  have happend := cut_append hlength.ge (stream.drop (size * (stream.length / size)))
  rwa [List.take_append_drop] at happend

/-- Nothing is lost, repeated or moved. -/
theorem flatten_blocks : (blocks size stream).flatten ++ leftover size stream = stream := by
  obtain ⟨whole, hlength, hstream, hcut⟩ := blocks_eq_cut stream
  rw [hcut, (flatten_cut hlength).1, hstream]

theorem length_of_mem_blocks {block : List α} (h : block ∈ blocks size stream) :
    block.length = size := by
  obtain ⟨whole, hlength, -, hcut⟩ := blocks_eq_cut stream
  rw [hcut] at h
  exact (flatten_cut hlength).2 block h

variable {stream} {x : List α}

/-- Elements that do not fill the block are left behind the last one. -/
theorem blocks_append_of_lt (h : (leftover size stream).length + x.length < size) :
    blocks size (stream ++ x) = blocks size stream ∧
      leftover size (stream ++ x) = leftover size stream ++ x := by
  rw [length_leftover] at h
  have hle : size * (stream.length / size) ≤ stream.length := Nat.mul_div_le _ _
  have hcount : (stream ++ x).length / size = stream.length / size := by
    have hsplit := Nat.div_add_mod stream.length size
    refine Nat.div_eq_of_lt_le ?_ ?_
    · rw [List.length_append, Nat.mul_comm]
      omega
    · rw [List.length_append, Nat.add_one_mul, Nat.mul_comm]
      omega
  constructor
  · rw [blocks, hcount, cut_append hle]
    rfl
  · rw [leftover, hcount, List.drop_append_of_le_length hle]
    rfl

/-- Elements that fill it complete a block. -/
theorem blocks_append_of_eq (hsize : 0 < size) (h : (leftover size stream).length + x.length = size) :
    blocks size (stream ++ x) = blocks size stream ++ [leftover size stream ++ x] ∧
      leftover size (stream ++ x) = [] := by
  have hle : size * (stream.length / size) ≤ stream.length := Nat.mul_div_le _ _
  have hlength : (stream ++ x).length = size * (stream.length / size + 1) := by
    rw [length_leftover] at h
    have hsplit := Nat.div_add_mod stream.length size
    rw [List.length_append, Nat.mul_succ]
    omega
  have hcount : (stream ++ x).length / size = stream.length / size + 1 := by
    rw [hlength, Nat.mul_div_cancel_left _ hsize]
  constructor
  · rw [blocks, hcount, cut_succ, cut_append hle, List.drop_append_of_le_length hle]
    congr 2
    exact List.take_of_length_le (by rw [List.length_append]; exact h.le)
  · rw [leftover, hcount, ← hlength, List.drop_length]

end Stream

end Stratus.Lib
