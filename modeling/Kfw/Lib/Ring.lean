import Mathlib

namespace exec

variable {α : Type} {n : Nat}

/-- Two positions less than a revolution apart have different slots. -/
theorem ring_slot_ne {head i j : Nat} (hij : i < j) (hj : j < i + n) : (head + i) % n ≠ (head + j) % n := by
  intro hsame
  have hdvd : n ∣ head + j - (head + i) := (Nat.modEq_iff_dvd' (by omega)).mp hsame
  have hle := Nat.le_of_dvd (by omega) hdvd
  omega

/-- A queue in a ring of `n` slots: its items stand from the position `head` on, and the
other slots are empty. -/
structure Ring (n : Nat) (slots : Nat → Option α) (head : Nat) (items : List α) : Prop where
  length_le : items.length ≤ n
  slot_eq : ∀ i < n, slots ((head + i) % n) = items[i]?

namespace Ring

variable {slots : Nat → Option α} {head : Nat} {items : List α}

theorem empty (n : Nat) : Ring n (fun _ => (none : Option α)) 0 [] :=
  ⟨Nat.zero_le n, fun _ _ => rfl⟩

/-- A slot behind the items is empty, as far as the ring goes. -/
theorem slot_behind (h : Ring n slots head items) {i : Nat} (hi : items.length + i < n) :
    slots ((head + items.length + i) % n) = none := by
  rw [Nat.add_assoc, h.slot_eq _ hi]
  exact List.getElem?_eq_none (Nat.le_add_right _ _)

/-- All slots of an empty queue are empty. -/
theorem slot_of_nil (h : Ring n slots head []) {i : Nat} (hi : i < n) : slots i = none := by
  have hlt := Nat.mod_lt head (by omega : n > 0)
  have hslot : (head + (i + n - head % n) % n) % n = i := by
    rw [Nat.add_mod_mod, ← Nat.mod_add_mod, show head % n + (i + n - head % n) = i + n by omega, Nat.add_mod_right,
      Nat.mod_eq_of_lt hi]
  have hget := h.slot_eq ((i + n - head % n) % n) (Nat.mod_lt _ (by omega))
  rwa [hslot, List.getElem?_nil] at hget

/-- Once around, the slot of the first item comes again. -/
theorem slot_around (h : Ring n slots head items) {i : Nat} (hi : items.length + i = n) (hitems : items ≠ []) :
    slots ((head + items.length + i) % n) ≠ none := by
  have hpositive := List.length_pos_iff.mpr hitems
  have hle := h.length_le
  have hfirst := h.slot_eq 0 (by omega)
  rw [Nat.add_zero] at hfirst
  rw [Nat.add_assoc, hi, Nat.add_mod_right, hfirst, List.getElem?_eq_getElem hpositive]
  exact Option.some_ne_none _

/-- The first empty slot is filled. -/
theorem push (h : Ring n slots head items) (hroom : items.length < n) (item : α) :
    Ring n (Function.update slots ((head + items.length) % n) (some item)) head (items ++ [item]) := by
  refine ⟨by simpa using hroom, fun i hi => ?_⟩
  by_cases hlast : i = items.length
  · rw [hlast, Function.update_self, List.getElem?_concat_length]
  · have hslot : (head + i) % n ≠ (head + items.length) % n := by
      rcases Nat.lt_or_gt_of_ne hlast with hlt | hgt
      · exact ring_slot_ne hlt (by omega)
      · exact (ring_slot_ne hgt (by omega)).symm
    rw [Function.update_of_ne hslot, h.slot_eq i hi]
    rcases Nat.lt_or_gt_of_ne hlast with hlt | hgt
    · rw [List.getElem?_append_left hlt]
    · rw [List.getElem?_eq_none hgt.le, List.getElem?_eq_none (by simpa using hgt)]

/-- The slot of the first item is emptied. -/
theorem pop {item : α} (h : Ring n slots head (item :: items)) :
    Ring n (Function.update slots (head % n) none) (head + 1) items := by
  have hle := h.length_le
  rw [List.length_cons] at hle
  refine ⟨by omega, fun i hi => ?_⟩
  by_cases hlast : i + 1 = n
  · rw [Nat.add_assoc, Nat.add_comm 1, hlast, Nat.add_mod_right, Function.update_self,
      List.getElem?_eq_none (by omega)]
  · have hslot : (head + 1 + i) % n ≠ head % n := by
      have hne : (head + 0) % n ≠ (head + (1 + i)) % n := ring_slot_ne (by omega) (by omega)
      rw [Nat.add_assoc]
      exact hne.symm
    rw [Function.update_of_ne hslot, Nat.add_assoc, Nat.add_comm 1, h.slot_eq _ (by omega),
      List.getElem?_cons_succ]

theorem slot_head {item : α} (h : Ring n slots head (item :: items)) : slots (head % n) = some item := by
  have hle := h.length_le
  rw [List.length_cons] at hle
  have hfirst := h.slot_eq 0 (by omega)
  rwa [Nat.add_zero, List.getElem?_cons_zero] at hfirst

end Ring

end exec
