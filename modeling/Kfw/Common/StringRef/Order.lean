import Kfw.Common.StringRef
import Kfw.Lib.ThreeWay

open exec Result

namespace kfw

/-- `memcmp` as the C library may have it: the sign of its answer is that of the first two
bytes that differ, taken as unsigned. -/
structure Memcmp where
  cmp : List UInt8 → List UInt8 → Int32
  ordering_eq : ∀ left right, left.length = right.length → ordering (cmp left right) = compare left right

namespace ConstStringRef

/-- The call of `memcmp`, which may read all of the bytes. -/
def memcmp_of (memcmp : Memcmp) (left right : List UInt8) (size : UInt32) : Exec Int32 :=
  if left.length < size.toNat ∨ right.length < size.toNat then fail .invalid_access
  else ok (memcmp.cmp (left.take size.toNat) (right.take size.toNat))

def compare (memcmp : Memcmp) (self obj : ConstStringRef) : Exec Int32 :=
  let cmp := (self.m_length - obj.m_length).toInt32
  if cmp ≠ 0 then ok cmp
  else if self.m_length = 0 then ok 0
  else memcmp_of memcmp self.m_data obj.m_data self.m_length

/-- A string of fewer than 2^31 bytes, with the bytes it refers to. -/
structure ShortString where
  str : ConstStringRef
  bytes : List UInt8
  refers : str.Refers bytes
  length_lt : bytes.length < 2 ^ 31

/-- The difference of two numbers below 2^31 does not overflow. -/
theorem toInt_ofNat_sub {first second : Nat} (hfirst : first < 2 ^ 31) (hsecond : second < 2 ^ 31) :
    (Int32.ofNat first - Int32.ofNat second).toInt = (first : Int) - second := by
  rw [Int32.toInt_sub, Int32.toInt_ofNat_of_lt hfirst, Int32.toInt_ofNat_of_lt hsecond]
  exact Int.bmod_eq_of_le (by omega) (by omega)

/-- So it says which of them is the greater. -/
theorem ordering_ofNat_sub {first second : Nat} (hfirst : first < 2 ^ 31) (hsecond : second < 2 ^ 31) :
    ordering (Int32.ofNat first - Int32.ofNat second) = Ord.compare first second := by
  rw [ordering, toInt_ofNat_sub hfirst hsecond]
  rcases Nat.lt_trichotomy first second with hlt | heq | hgt
  · rw [Int.compare_eq_lt.mpr (by omega), Nat.compare_eq_lt.mpr hlt]
  · rw [Int.compare_eq_eq.mpr (by omega), Nat.compare_eq_eq.mpr heq]
  · rw [Int.compare_eq_gt.mpr (by omega), Nat.compare_eq_gt.mpr hgt]

theorem compare_byte_eq (first second : UInt8) :
    Ord.compare first second = Ord.compare first.toNat second.toNat := by
  rcases Nat.lt_trichotomy first.toNat second.toNat with hlt | heq | hgt
  · rw [Nat.compare_eq_lt.mpr hlt]
    exact Std.compare_eq_lt.mpr hlt
  · rw [Nat.compare_eq_eq.mpr heq]
    exact Std.LawfulEqCmp.compare_eq_iff_eq.mpr (UInt8.toNat_inj.mp heq)
  · rw [Nat.compare_eq_gt.mpr hgt]
    exact Std.compare_eq_gt.mpr hgt

/-- The difference of the first two bytes that differ says how the strings are ordered. -/
theorem ordering_byte_difference {left right : List UInt8} (hlength : left.length = right.length) :
    ordering (byte_difference left right) = Ord.compare left right := by
  induction left generalizing right with
  | nil =>
    obtain rfl : right = [] := List.eq_nil_of_length_eq_zero hlength.symm
    rfl
  | cons first left ih =>
    cases right with
    | nil => cases hlength
    | cons second right =>
      rw [List.compare_cons_cons]
      by_cases hfirst : first = second
      · subst hfirst
        have hself : Ord.compare first first = .eq := Std.ReflCmp.compare_self
        rw [byte_difference_cons_self, ih (by simpa using hlength), hself, Ordering.eq_then]
      · have hbyte := first.toNat_lt
        have hotherByte := second.toNat_lt
        have hne : Ord.compare first second ≠ .eq := mt Std.LawfulEqCmp.compare_eq_iff_eq.mp hfirst
        rw [byte_difference_cons_of_ne hfirst, ordering_ofNat_sub (by omega) (by omega), ← compare_byte_eq,
          then_of_ne hne]

/-- A `memcmp` that answers the difference. -/
instance : Inhabited Memcmp := ⟨{ cmp := byte_difference, ordering_eq := fun _ _ => ordering_byte_difference }⟩

/-- The length, as a signed difference, comes first: below 2^31 its sign is right. Then
`rest` decides, which is not run for empty strings. -/
theorem Refers.by_length {str obj : ConstStringRef} {bytes others : List UInt8} (h : str.Refers bytes)
    (hobj : obj.Refers others) (hbytes : bytes.length < 2 ^ 31) (hothers : others.length < 2 ^ 31)
    {rest : Exec Int32} {order : Ordering} (hempty : bytes = [] → others = [] → order = .eq)
    (hrest : bytes.length = others.length → ∃ r, rest = ok r ∧ ordering r = order) :
    ∃ r, (if (str.m_length - obj.m_length).toInt32 ≠ 0 then ok (str.m_length - obj.m_length).toInt32
        else if str.m_length = 0 then ok 0 else rest) = ok r ∧
      ordering r = (Ord.compare bytes.length others.length).then order := by
  have hsub : (str.m_length - obj.m_length).toInt32 = Int32.ofNat bytes.length - Int32.ofNat others.length := by
    rw [UInt32.toInt32_sub, ← h.length, ← hobj.length]
    exact congrArg₂ (· - ·) (toInt32_eq_ofNat str.m_length) (toInt32_eq_ofNat obj.m_length)
  have hordering := ordering_ofNat_sub hbytes hothers
  rw [← hsub] at hordering
  by_cases hzero : (str.m_length - obj.m_length).toInt32 = 0
  · have hcompare : Ord.compare bytes.length others.length = .eq := by
      rw [← hordering, ordering_eq_iff, hzero]
    have hsame := Nat.compare_eq_eq.mp hcompare
    rw [if_neg (not_not.mpr hzero), hcompare, Ordering.eq_then]
    by_cases hnone : str.m_length = 0
    · have hnil : bytes = [] := List.eq_nil_of_length_eq_zero (by rw [← h.length, hnone]; rfl)
      rw [hnil] at hsame
      refine ⟨0, if_pos hnone, ?_⟩
      rw [hempty hnil (List.eq_nil_of_length_eq_zero hsame.symm)]
      rfl
    · rw [if_neg hnone]
      exact hrest hsame
  · have hne : Ord.compare bytes.length others.length ≠ .eq := by
      rw [← hordering]
      exact mt ordering_eq_iff.mp hzero
    exact ⟨_, if_pos hzero, by rw [hordering, then_of_ne hne]⟩

/-- `compare` orders strings by length and then by their bytes. -/
theorem compare_orders (memcmp : Memcmp) :
    Orders (fun a b : ShortString => a.str.compare memcmp b.str) ShortString.bytes shortlex := by
  intro a b
  refine a.refers.by_length b.refers a.length_lt b.length_lt (fun hnil hother => ?_) fun hsame => ?_
  · rw [hnil, hother]
    rfl
  · have hread := a.refers.readable
    have hreadOther := b.refers.readable
    have hsize := a.refers.length
    have hfits : ¬ (a.str.m_data.length < a.str.m_length.toNat ∨ b.str.m_data.length < a.str.m_length.toNat) := by
      have hle := hread.length_le
      have hleOther := hreadOther.length_le
      omega
    refine ⟨memcmp.cmp a.bytes b.bytes, ?_, memcmp.ordering_eq _ _ hsame⟩
    rw [memcmp_of, if_neg hfits, hsize, ← List.prefix_iff_eq_take.mp hread, hsame,
      ← List.prefix_iff_eq_take.mp hreadOther]

/-- `compare_ignore_case` does the same with the strings in lower case. -/
theorem compare_ignore_case_orders :
    Orders (fun a b : ShortString => a.str.compare_ignore_case b.str) (fun a => a.bytes.map to_lower) shortlex := by
  intro a b
  have hlengths : shortlex (a.bytes.map to_lower) (b.bytes.map to_lower) =
      (Ord.compare a.bytes.length b.bytes.length).then
        (Ord.compare (a.bytes.map to_lower) (b.bytes.map to_lower)) := by
    rw [shortlex, compareLex, compareOn, List.length_map, List.length_map]
  simp only [hlengths]
  refine a.refers.by_length b.refers a.length_lt b.length_lt (fun hnil hother => ?_) fun hsame => ?_
  · rw [hnil, hother]
    rfl
  · refine ⟨_, ?_, ordering_byte_difference (by rw [List.length_map, List.length_map, hsame])⟩
    rw [a.refers.length]
    exact a.refers.compare_from b.refers rfl rfl hsame

/-- On strings of fewer than 2^31 bytes both comparisons are total preorders. They find the
same bytes, or the same bytes in lower case, and nothing else. -/
theorem compare_consistent (memcmp : Memcmp) :
    TotalPreorder (fun a b : ShortString => a.str.compare memcmp b.str) ∧
      TotalPreorder (fun a b : ShortString => a.str.compare_ignore_case b.str) ∧
      ∀ a b : ShortString,
        (a.str.compare memcmp b.str = ok 0 ↔ a.bytes = b.bytes) ∧
        (a.str.compare_ignore_case b.str = ok 0 ↔ a.bytes.map to_lower = b.bytes.map to_lower) ∧
        (a.str.compare memcmp b.str = ok 0 → a.str.compare_ignore_case b.str = ok 0) := by
  have hcompare := compare_orders memcmp
  have hignore := compare_ignore_case_orders
  refine ⟨hcompare.totalPreorder, hignore.totalPreorder, fun a b => ?_⟩
  have hsame : a.str.compare memcmp b.str = ok 0 ↔ a.bytes = b.bytes :=
    (hcompare.eq_zero_iff).trans shortlex_eq_iff
  have hsameLower : a.str.compare_ignore_case b.str = ok 0 ↔ a.bytes.map to_lower = b.bytes.map to_lower :=
    (hignore.eq_zero_iff).trans shortlex_eq_iff
  refine ⟨hsame, hsameLower, fun hzero => ?_⟩
  rw [hsameLower, hsame.mp hzero]

end ConstStringRef

end kfw
