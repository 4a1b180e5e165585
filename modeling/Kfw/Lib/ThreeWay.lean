import Kfw.Lib.Exec

namespace exec

open Result

variable {ε α β : Type}

/-- What the answer of a three-way comparison says: less, equal or greater. -/
def ordering (r : Int32) : Ordering := compare r.toInt 0

theorem ordering_eq_iff {r : Int32} : ordering r = .eq ↔ r = 0 := by
  rw [ordering, Int.compare_eq_eq, ← Int32.toInt_inj]
  rfl

theorem ordering_isLE_iff {r : Int32} : (ordering r).isLE = true ↔ r.toInt ≤ 0 := by
  rw [ordering, Int.isLE_compare]

/-- A first comparison that finds a difference decides. -/
theorem then_of_ne {first second : Ordering} (hne : first ≠ .eq) : first.then second = first := by
  cases first with
  | lt | gt => rfl
  | eq => exact absurd rfl hne

/-- The sign of an answer, for what it says. -/
theorem sign_toInt_eq (r : Int32) :
    r.toInt.sign = match ordering r with
      | .lt => -1
      | .eq => 0
      | .gt => 1 := by
  rcases Int.lt_trichotomy r.toInt 0 with hneg | hzero | hpos
  · rw [ordering, Int.compare_eq_lt.mpr hneg, Int.sign_eq_neg_one_of_neg hneg]
  · rw [ordering, Int.compare_eq_eq.mpr hzero, hzero, Int.sign_zero]
  · rw [ordering, Int.compare_eq_gt.mpr hpos, Int.sign_eq_one_of_pos hpos]

/-- A comparison that always answers, and whose answers make a total preorder: swapping
turns the sign, and what is not greater is so transitively. -/
structure TotalPreorder (f : α → α → Result ε Int32) : Prop where
  answers : ∀ a b, ∃ r, f a b = ok r
  swap : ∀ {a b r r'}, f a b = ok r → f b a = ok r' → r'.toInt.sign = -r.toInt.sign
  trans : ∀ {a b c r r' r''}, f a b = ok r → f b c = ok r' → f a c = ok r'' →
    r.toInt ≤ 0 → r'.toInt ≤ 0 → r''.toInt ≤ 0

/-- The comparison always answers, and its answers say how `cmp` orders the keys. -/
def Orders (f : α → α → Result ε Int32) (key : α → β) (cmp : β → β → Ordering) : Prop :=
  ∀ a b, ∃ r, f a b = ok r ∧ ordering r = cmp (key a) (key b)

namespace Orders

variable {f : α → α → Result ε Int32} {key : α → β} {cmp : β → β → Ordering} {a b : α} {r : Int32}

theorem ordering_eq (h : Orders f key cmp) (hr : f a b = ok r) : ordering r = cmp (key a) (key b) := by
  obtain ⟨r', hr', hordering⟩ := h a b
  cases hr.symm.trans hr'
  exact hordering

theorem eq_zero_iff (h : Orders f key cmp) : f a b = ok 0 ↔ cmp (key a) (key b) = .eq := by
  obtain ⟨r, hr, hordering⟩ := h a b
  rw [hr, ← hordering, ordering_eq_iff, ok.injEq]

theorem totalPreorder [Std.TransCmp cmp] (h : Orders f key cmp) : TotalPreorder f where
  answers a b := by
    obtain ⟨r, hr, _⟩ := h a b
    exact ⟨r, hr⟩
  swap := by
    intro a b r r' hr hr'
    have hswap : ordering r' = (ordering r).swap := by
      rw [h.ordering_eq hr, h.ordering_eq hr']
      exact Std.OrientedCmp.eq_swap
    rw [sign_toInt_eq, sign_toInt_eq, hswap]
    cases ordering r with
    | lt | eq | gt => rfl
  trans := by
    intro a b c r r' r'' hr hr' hr'' hle hle'
    rw [← ordering_isLE_iff] at hle hle' ⊢
    rw [h.ordering_eq hr] at hle
    rw [h.ordering_eq hr'] at hle'
    rw [h.ordering_eq hr'']
    exact Std.TransCmp.isLE_trans hle hle'

end Orders

/-- Lists by their length, and those of one length lexicographically. -/
def shortlex [Ord α] : List α → List α → Ordering := compareLex (compareOn List.length) compare

instance [Ord α] [Std.TransOrd α] : Std.TransCmp (shortlex : List α → List α → Ordering) :=
  inferInstanceAs (Std.TransCmp (compareLex (compareOn List.length) compare))

theorem shortlex_eq_iff [Ord α] [Std.TransOrd α] [Std.LawfulEqOrd α] {left right : List α} :
    shortlex left right = .eq ↔ left = right := by
  rw [shortlex, compareLex, Ordering.then_eq_eq]
  constructor
  · intro ⟨_, hequal⟩
    exact Std.LawfulEqCmp.compare_eq_iff_eq.mp hequal
  · rintro rfl
    exact ⟨Nat.compare_eq_eq.mpr rfl, Std.ReflCmp.compare_self⟩

end exec
