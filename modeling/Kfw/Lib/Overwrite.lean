import Mathlib

namespace exec

variable {α : Type} {mem data : List α} {pos : Nat}

/-- Data put over a part of the memory does not change its length. -/
theorem length_overwrite (hfits : pos + data.length ≤ mem.length) :
    (mem.take pos ++ (data ++ mem.drop (pos + data.length))).length = mem.length := by
  simp only [List.length_append, List.length_take, List.length_drop]
  omega

/-- Up to its end, the memory is as it was and then has the data. -/
theorem take_overwrite (hfits : pos + data.length ≤ mem.length) :
    (mem.take pos ++ (data ++ mem.drop (pos + data.length))).take (pos + data.length) = mem.take pos ++ data := by
  rw [← List.append_assoc]
  apply List.take_left'
  rw [List.length_append, List.length_take, Nat.min_eq_left (by omega)]

end exec
