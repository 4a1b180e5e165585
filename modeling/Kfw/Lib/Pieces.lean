import Mathlib

namespace exec

variable {α : Type} {size i : Nat} {l more : List α}

/-- The piece with number `i` of a list that is cut up every `size` elements. -/
def piece (size i : Nat) (l : List α) : List α := (l.drop (size * i)).take size

theorem length_piece_le (size i : Nat) (l : List α) : (piece size i l).length ≤ size := by
  rw [piece, List.length_take]
  exact Nat.min_le_left _ _

theorem length_piece (size i : Nat) (l : List α) : (piece size i l).length = min size (l.length - size * i) := by
  rw [piece, List.length_take, List.length_drop]

/-- A piece is the next part of the list. -/
theorem take_append_piece (size i : Nat) (l : List α) :
    l.take (size * i) ++ piece size i l = l.take (size * (i + 1)) := by
  rw [piece, Nat.mul_succ, List.take_add]

/-- A full piece stays as it is when the list grows. -/
theorem piece_append_of_le (hfull : size * (i + 1) ≤ l.length) : piece size i (l ++ more) = piece size i l := by
  rw [Nat.mul_succ] at hfull
  rw [piece, piece, List.drop_append_of_le_length (by omega), List.take_append_of_le_length]
  rw [List.length_drop]
  omega

/-- What is put behind the list goes in the last piece, as far as it fits there. -/
theorem piece_append_last (hlast : size * i ≤ l.length) (hfits : l.length + more.length ≤ size * (i + 1)) :
    piece size i (l ++ more) = piece size i l ++ more := by
  rw [Nat.mul_succ] at hfits
  have hrest : (l.drop (size * i)).length ≤ size := by
    rw [List.length_drop]
    omega
  have hwhole : (l.drop (size * i) ++ more).length ≤ size := by
    rw [List.length_append, List.length_drop]
    omega
  rw [piece, piece, List.drop_append_of_le_length hlast, List.take_of_length_le hrest, List.take_of_length_le hwhole]

end exec
