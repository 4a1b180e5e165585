import Kfw.Common.StringRef

open exec Result

namespace kfw.ConstStringRef

/-- What stands in front of the first `ch`, or everything. -/
def before (ch : UInt8) (text : List UInt8) : List UInt8 := text.takeWhile (· ≠ ch)

/-- What stands behind the first `ch`, or nothing. -/
def after (ch : UInt8) (text : List UInt8) : List UInt8 := (text.dropWhile (· ≠ ch)).drop 1

theorem before_append_after {ch : UInt8} {text : List UInt8} (hmem : ch ∈ text) :
    text = before ch text ++ ch :: after ch text := by
  induction text with
  | nil => cases hmem
  | cons first text ih =>
    by_cases hfirst : first = ch
    · subst hfirst
      simp [before, after]
    · have hrest := ih ((List.mem_cons.mp hmem).resolve_left (Ne.symm hfirst))
      simp only [before, after] at hrest ⊢
      rw [List.takeWhile_cons_of_pos (by simpa using hfirst), List.dropWhile_cons_of_pos (by simpa using hfirst),
        List.cons_append, ← hrest]

theorem before_of_notMem {ch : UInt8} {text : List UInt8} (hmem : ch ∉ text) : before ch text = text := by
  rw [before, List.takeWhile_eq_self_iff]
  intro other hother
  simp only [decide_eq_true_eq]
  rintro rfl
  exact hmem hother

theorem after_of_notMem {ch : UInt8} {text : List UInt8} (hmem : ch ∉ text) : after ch text = [] := by
  have hnil : text.dropWhile (· ≠ ch) = [] := by
    rw [List.dropWhile_eq_nil_iff]
    intro other hother
    simp only [decide_eq_true_eq]
    rintro rfl
    exact hmem hother
  rw [after, hnil, List.drop_nil]

theorem length_before_le (ch : UInt8) (text : List UInt8) : (before ch text).length ≤ text.length :=
  (List.takeWhile_prefix _).length_le

theorem length_after_le (ch : UInt8) (text : List UInt8) : (after ch text).length ≤ text.length :=
  ((List.drop_suffix 1 _).trans (List.dropWhile_suffix _)).length_le

variable {str : ConstStringRef} {text : List UInt8}

theorem not_index_neg {n : Nat} (hn : n < 2 ^ 31) : ¬ Int32.ofNat n < 0 := by
  rw [Int32.lt_iff_toInt_lt, Int32.toInt_ofNat_of_lt hn]
  change ¬ (n : Int) < 0
  omega

theorem index_add_one {n : Nat} (hn : n < 2 ^ 31) : (Int32.ofNat n + 1).toUInt32.toNat = n + 1 := by
  rw [Int32.toUInt32_add, UInt32.toNat_add]
  change (n % 2 ^ 32 + 1) % 2 ^ 32 = n + 1
  omega

theorem index_toUInt32 {n : Nat} (hn : n < 2 ^ 31) : (Int32.ofNat n).toUInt32.toNat = n := by
  change n % 2 ^ 32 = n
  omega

theorem notMem_before (ch : UInt8) (text : List UInt8) : ch ∉ before ch text := by
  intro hmem
  simpa using List.mem_takeWhile_imp hmem

/-- A split at a character that is not in the front part is the split at its
first occurrence. -/
theorem before_append {ch : UInt8} {front back : List UInt8} (hfront : ch ∉ front) :
    before ch (front ++ ch :: back) = front ∧ after ch (front ++ ch :: back) = back := by
  have hall : ∀ other ∈ front, decide (other ≠ ch) = true := by
    intro other hother
    simp only [decide_eq_true_eq]
    rintro rfl
    exact hfront hother
  rw [before, after, List.takeWhile_append_of_pos hall, List.dropWhile_append_of_pos hall]
  simp

theorem Refers.index_of_none (h : str.Refers text) {ch : UInt8} (hmem : ch ∉ text) :
    str.index_of ch 0 = ok (-1) := by
  have hindex := h.index_of ch 0
  change _ = ok (if ch ∈ text then _ else -1) at hindex
  rwa [if_neg hmem] at hindex

/-- Cutting a string at the first `ch`. -/
theorem Refers.cut {ch : UInt8} {front back : List UInt8} (h : str.Refers (front ++ ch :: back))
    (hfront : ch ∉ front) (hlength : (front ++ ch :: back).length < 2 ^ 31) :
    str.index_of ch 0 = ok (Int32.ofNat front.length) ∧
      (str.sub_string 0 (Int32.ofNat front.length).toUInt32).Refers front ∧
      (str.sub_string_from (Int32.ofNat front.length + 1).toUInt32).Refers back := by
  rw [List.length_append, List.length_cons] at hlength
  have hcount : (Int32.ofNat front.length).toUInt32.toNat = front.length := index_toUInt32 (by omega)
  have hnext : (Int32.ofNat front.length + 1).toUInt32.toNat = front.length + 1 := index_add_one (by omega)
  have hsplit : (front ++ ch :: back).drop (front.length + 1) = back := by
    rw [← List.drop_drop, List.drop_left, List.drop_one, List.tail_cons]
  refine ⟨?_, ?_, ?_⟩
  · have hindex := h.index_of ch 0
    change _ = ok (if ch ∈ front ++ ch :: back then
      Int32.ofNat (0 + (before ch (front ++ ch :: back)).length) else -1) at hindex
    rwa [if_pos (by simp), Nat.zero_add, (before_append hfront).1] at hindex
  · have hsub := h.sub_string 0 (Int32.ofNat front.length).toUInt32
      (by rw [hcount, List.length_append]; change 0 + _ ≤ _; omega)
    rw [hcount] at hsub
    change Refers _ ((front ++ ch :: back).take _) at hsub
    rwa [List.take_left] at hsub
  · have hsub := h.sub_string_from (Int32.ofNat front.length + 1).toUInt32
      (by rw [hnext, List.length_append, List.length_cons]; omega)
    rwa [hnext, hsplit] at hsub

/-- A second cut, behind the first. -/
theorem Refers.cut_again {ch : UInt8} {front middle back : List UInt8}
    (h : str.Refers (front ++ ch :: (middle ++ ch :: back))) (hmiddle : ch ∉ middle)
    (hlength : (front ++ ch :: (middle ++ ch :: back)).length < 2 ^ 31) :
    str.index_of ch (Int32.ofNat front.length + 1).toUInt32 = ok (Int32.ofNat (front.length + 1 + middle.length)) ∧
      (str.sub_string (Int32.ofNat front.length + 1).toUInt32
        (Int32.ofNat (front.length + 1 + middle.length) - (Int32.ofNat front.length + 1)).toUInt32).Refers middle ∧
      (str.sub_string_from (Int32.ofNat (front.length + 1 + middle.length) + 1).toUInt32).Refers back := by
  simp only [List.length_append, List.length_cons] at hlength
  have hnext : (Int32.ofNat front.length + 1).toUInt32.toNat = front.length + 1 := index_add_one (by omega)
  have hsecond : (Int32.ofNat (front.length + 1 + middle.length)).toUInt32.toNat =
      front.length + 1 + middle.length := index_toUInt32 (by omega)
  have hlast : (Int32.ofNat (front.length + 1 + middle.length) + 1).toUInt32.toNat =
      front.length + 1 + middle.length + 1 := index_add_one (by omega)
  have hcount : (Int32.ofNat (front.length + 1 + middle.length) -
      (Int32.ofNat front.length + 1)).toUInt32.toNat = middle.length := by
    rw [Int32.toUInt32_sub, UInt32.toNat_sub_of_le _ _ (UInt32.le_iff_toNat_le.mpr (by omega)), hsecond, hnext]
    omega
  have hrest : (front ++ ch :: (middle ++ ch :: back)).drop (front.length + 1) = middle ++ ch :: back := by
    rw [← List.drop_drop, List.drop_left, List.drop_one, List.tail_cons]
  have hback : (front ++ ch :: (middle ++ ch :: back)).drop (front.length + 1 + middle.length + 1) = back := by
    rw [Nat.add_assoc, ← List.drop_drop, hrest, ← List.drop_drop, List.drop_left, List.drop_one, List.tail_cons]
  refine ⟨?_, ?_, ?_⟩
  · have hindex := h.index_of ch (Int32.ofNat front.length + 1).toUInt32
    rw [hnext, hrest, if_pos (by simp)] at hindex
    change _ = ok (Int32.ofNat (_ + (before ch (middle ++ ch :: back)).length)) at hindex
    rwa [(before_append hmiddle).1] at hindex
  · have hsub := h.sub_string (Int32.ofNat front.length + 1).toUInt32
      (Int32.ofNat (front.length + 1 + middle.length) - (Int32.ofNat front.length + 1)).toUInt32
      (by simp only [hnext, hcount, List.length_append, List.length_cons]; omega)
    rwa [hnext, hcount, hrest, List.take_left] at hsub
  · have hsub := h.sub_string_from (Int32.ofNat (front.length + 1 + middle.length) + 1).toUInt32
      (by simp only [hlast, List.length_append, List.length_cons]; omega)
    rwa [hlast, hback] at hsub

/-- No second cut: the rest is behind the first. -/
theorem Refers.index_of_again_none {ch : UInt8} {front back : List UInt8}
    (h : str.Refers (front ++ ch :: back)) (hback : ch ∉ back)
    (hlength : (front ++ ch :: back).length < 2 ^ 31) :
    str.index_of ch (Int32.ofNat front.length + 1).toUInt32 = ok (-1) := by
  rw [List.length_append, List.length_cons] at hlength
  have hnext : (Int32.ofNat front.length + 1).toUInt32.toNat = front.length + 1 := index_add_one (by omega)
  have hrest : (front ++ ch :: back).drop (front.length + 1) = back := by
    rw [← List.drop_drop, List.drop_left, List.drop_one, List.tail_cons]
  have hindex := h.index_of ch (Int32.ofNat front.length + 1).toUInt32
  rwa [hnext, hrest, if_neg hback] at hindex

end kfw.ConstStringRef
