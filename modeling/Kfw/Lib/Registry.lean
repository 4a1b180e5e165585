import Mathlib

namespace exec

variable {V κ : Type}

/-- The live objects are those that the holders hold, each of them held by one. -/
structure Exact (held : V → Finset κ) (live : Finset κ) : Prop where
  live_iff : ∀ object, object ∈ live ↔ ∃ v, object ∈ held v
  unique : ∀ v w object, object ∈ held v → object ∈ held w → v = w

namespace Exact

variable {held : V → Finset κ} {live new : Finset κ}

theorem empty : Exact (fun _ : V => (∅ : Finset κ)) ∅ := ⟨by simp, by simp⟩

/-- One holder gives up what it holds and gets new objects. -/
theorem replace [DecidableEq V] [DecidableEq κ] (h : Exact held live) (v : V)
    (hnew : ∀ object ∈ new, object ∉ live) :
    Exact (Function.update held v new) (live \ held v ∪ new) := by
  constructor
  · intro object
    rw [Finset.mem_union, Finset.mem_sdiff, h.live_iff]
    constructor
    · rintro (⟨⟨w, hw⟩, hnot⟩ | hobject)
      · have hne : w ≠ v := fun heq => hnot (heq ▸ hw)
        exact ⟨w, by rwa [Function.update_of_ne hne]⟩
      · exact ⟨v, by rwa [Function.update_self]⟩
    · rintro ⟨w, hw⟩
      by_cases heq : w = v
      · rw [heq, Function.update_self] at hw
        exact .inr hw
      · rw [Function.update_of_ne heq] at hw
        exact .inl ⟨⟨w, hw⟩, fun hv => heq (h.unique w v object hw hv)⟩
  · -- an object of another holder was live, so it is none of the new ones
    have hother : ∀ w object, w ≠ v → object ∈ held w → object ∉ new :=
      fun w object _ hw hobject => hnew object hobject ((h.live_iff object).mpr ⟨w, hw⟩)
    intro u w object hu hw
    by_cases huv : u = v
    · by_cases hwv : w = v
      · rw [huv, hwv]
      · rw [huv, Function.update_self] at hu
        rw [Function.update_of_ne hwv] at hw
        exact absurd hu (hother w object hwv hw)
    · rw [Function.update_of_ne huv] at hu
      by_cases hwv : w = v
      · rw [hwv, Function.update_self] at hw
        exact absurd hw (hother u object huv hu)
      · rw [Function.update_of_ne hwv] at hw
        exact h.unique u w object hu hw

end Exact

end exec
