import Kfw.Lib.Exec

namespace exec

variable {V α : Type} [Fintype V] [DecidableEq α]

/-- How many of the variables hold a value. -/
def holders (held : V → α) (value : α) : Nat := (Finset.univ.filter fun v => held v = value).card

variable {held : V → α} {v : V} {value new : α}

theorem holders_pos_iff : 0 < holders held value ↔ ∃ v, held v = value := by
  simp [holders, Finset.card_pos, Finset.filter_nonempty_iff]

theorem holders_le_card (held : V → α) (value : α) : holders held value ≤ Fintype.card V :=
  Finset.card_le_univ _

/-- Two holders make a value shared. -/
theorem one_lt_holders {other : V} (hne : other ≠ v) (hv : held v = value) (hother : held other = value) :
    1 < holders held value := by
  refine Finset.one_lt_card.mpr ⟨v, by simp [hv], other, by simp [hother], hne.symm⟩

variable [DecidableEq V]

/-- Variables that hold other values do not count. -/
theorem holders_update_other (hold : held v ≠ value) (hnew : new ≠ value) :
    holders (Function.update held v new) value = holders held value := by
  unfold holders
  congr 1
  ext other
  by_cases hother : other = v
  · simp [hother, hold, hnew]
  · simp [Function.update_of_ne hother]

theorem holders_update_self (hold : held v ≠ value) :
    holders (Function.update held v value) value = holders held value + 1 := by
  have hinsert : (Finset.univ.filter fun other => Function.update held v value other = value) =
      insert v (Finset.univ.filter fun other => held other = value) := by
    ext other
    by_cases hother : other = v
    · simp [hother]
    · simp [hother]
  rw [holders, hinsert, Finset.card_insert_of_notMem (by simp [hold]), holders]

theorem holders_update_gone (hold : held v = value) (hnew : new ≠ value) :
    holders (Function.update held v new) value + 1 = holders held value := by
  have hgone : Function.update held v new v ≠ value := by rwa [Function.update_self]
  have hback := holders_update_self hgone
  rw [Function.update_idem, ← hold, Function.update_eq_self, hold] at hback
  exact hback.symm

end exec
