import Kfw.Lib.Exec

namespace exec

/-- Resources, numbered as they are obtained, and how often each was deleted. -/
structure Resources where
  obtained : Nat := 0
  deletes : Nat → Nat := fun _ => 0

namespace Resources

/-- One more resource; the number of the new one is `obtained`. -/
def obtain (resources : Resources) : Resources := { resources with obtained := resources.obtained + 1 }

def delete (resources : Resources) (id : Nat) : Resources :=
  { resources with deletes := Function.update resources.deletes id (resources.deletes id + 1) }

@[simp] theorem obtain_obtained (resources : Resources) : resources.obtain.obtained = resources.obtained + 1 := rfl

@[simp] theorem delete_deletes (resources : Resources) (id : Nat) :
    (resources.delete id).deletes = Function.update resources.deletes id (resources.deletes id + 1) := rfl

end Resources

variable {V : Type}

/-- Where a resource stands: it has one owner and was not deleted, or it has none
and was deleted once, or it was not obtained yet. -/
inductive Account (owner : V → Option Nat) (resources : Resources) (id : Nat) : Prop where
  | owned (v : V) (hid : id < resources.obtained) (hdeletes : resources.deletes id = 0)
      (howner : ∀ w, owner w = some id ↔ w = v)
  | deleted (hid : id < resources.obtained) (hdeletes : resources.deletes id = 1)
      (hnone : ∀ w, owner w ≠ some id)
  | unobtained (hid : resources.obtained ≤ id) (hdeletes : resources.deletes id = 0)
      (hnone : ∀ w, owner w ≠ some id)

/-- Every resource is accounted for. -/
def Owned (owner : V → Option Nat) (resources : Resources) : Prop := ∀ id, Account owner resources id

namespace Owned

theorem start : Owned (fun _ : V => none) {} := fun id => .unobtained (Nat.zero_le id) rfl (by simp)

variable [DecidableEq V] {owner : V → Option Nat} {resources : Resources} {v obj : V} {id : Nat}

/-- A new resource goes to one that owns nothing. -/
theorem obtain (h : Owned owner resources) (hv : owner v = none) :
    Owned (Function.update owner v (some resources.obtained)) resources.obtain := by
  intro id
  cases h id with
  | owned u hid hdeletes howner =>
    refine .owned u (Nat.lt_succ_of_lt hid) hdeletes fun w => ?_
    grind [Function.update]
  | deleted hid hdeletes hnone =>
    refine .deleted (Nat.lt_succ_of_lt hid) hdeletes fun w => ?_
    grind [Function.update]
  | unobtained hid hdeletes hnone =>
    by_cases hnew : id = resources.obtained
    · refine .owned v (by simp [hnew]) hdeletes fun w => ?_
      grind [Function.update]
    · refine .unobtained (Nat.lt_of_le_of_ne hid (Ne.symm hnew)) hdeletes fun w => ?_
      grind [Function.update]

/-- A resource is deleted by its owner. -/
theorem delete (h : Owned owner resources) (hv : owner v = some id) :
    Owned (Function.update owner v none) (resources.delete id) := by
  intro other
  cases h other with
  | owned u hid hdeletes howner =>
    by_cases hother : other = id
    · refine .deleted hid (by simp [hother, ← hdeletes]) fun w => ?_
      grind [Function.update]
    · refine .owned u hid (by simp [hother, hdeletes]) fun w => ?_
      grind [Function.update]
  | deleted hid hdeletes hnone =>
    have hother : other ≠ id := fun heq => hnone v (heq ▸ hv)
    refine .deleted hid (by simp [hother, hdeletes]) fun w => ?_
    grind [Function.update]
  | unobtained hid hdeletes hnone =>
    have hother : other ≠ id := fun heq => hnone v (heq ▸ hv)
    refine .unobtained hid (by simp [hother, hdeletes]) fun w => ?_
    grind [Function.update]

/-- What one owns goes to another, which owns nothing; they may be the same. -/
theorem move (h : Owned owner resources) (hv : owner v = none) :
    Owned (Function.update (Function.update owner v (owner obj)) obj none) resources := by
  intro id
  cases h id with
  | owned u hid hdeletes howner =>
    by_cases hu : u = obj
    · refine .owned v hid hdeletes fun w => ?_
      grind [Function.update]
    · refine .owned u hid hdeletes fun w => ?_
      grind [Function.update]
  | deleted hid hdeletes hnone =>
    refine .deleted hid hdeletes fun w => ?_
    grind [Function.update]
  | unobtained hid hdeletes hnone =>
    refine .unobtained hid hdeletes fun w => ?_
    grind [Function.update]

end Owned

end exec
