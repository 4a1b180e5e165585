import Kfw.Common.Integer.Format

open exec Result

namespace kfw

/-- The loop of `Int32::parse` with `count` characters to go. -/
def Int32.parse_from (s : ConstStringRef) (sign : Int32) : Nat → UInt32 → Int32 → Exec (ret_t × Int32)
  | 0, _, r => ok (kOk, r * sign)
  | count + 1, p, r => do
    let ch ← s.get p
    if ch < 48 ∨ ch > 57 then ok (kEFormat, 0)
    else parse_from s sign count (p + 1) (r * 10 + (ch - 48).toUInt32.toInt32)

/-- The sign is looked at, but the loop starts with it and does not take it for a digit. -/
def Int32.parse (s : ConstStringRef) : Exec (ret_t × Int32) :=
  if s.m_length = 0 then ok (kEFormat, 0)
  else do
    let ch ← s.get 0
    let sign := if ch = 45 then -1 else 1
    Int32.parse_from s sign s.m_length.toNat 0 0

/-- A parser that is given the digits of `n` answers with that number, if it is below
`bound`, and rejects it otherwise. -/
def ParsesBelow {α : Type} (answer : Exec (ret_t × α)) (toInt : α → Int) (bound n : Nat) : Prop :=
  if n < bound then ∃ val, answer = ok (kOk, val) ∧ toInt val = n
  else ∃ r val, answer = ok (r, val) ∧ is_failed r = true ∧ toInt val = 0

/-- A parser that never rejects digits does so exactly for the numbers it can give. -/
theorem parses_below_iff {α : Type} {answer : Exec (ret_t × α)} {toInt : α → Int} {bound n : Nat} {val : α}
    (hanswer : answer = ok (kOk, val)) (hval : n < bound → toInt val = n) :
    ParsesBelow answer toInt bound n ↔ n < bound := by
  rw [ParsesBelow]
  split
  · rename_i hn
    exact iff_of_true ⟨val, hanswer, hval hn⟩ hn
  · rename_i hn
    refine iff_of_false ?_ hn
    rintro ⟨r, val', hrejects, hr, -⟩
    rw [hanswer] at hrejects
    cases hrejects
    cases hr

variable {str : ConstStringRef} {bytes : List UInt8}

/-- Signed parsing is unsigned parsing read as a signed number. -/
theorem Int32.parse_from_eq (s : ConstStringRef) (sign : Int32) (count : Nat) (p : UInt32) (r : Int32) :
    Int32.parse_from s sign count p r = (do
      let (ret, val) ← UInt32.parse_from s count p r.toUInt32
      ok (ret, val.toInt32 * sign)) := by
  induction count generalizing p r with
  | zero => simp only [parse_from, UInt32.parse_from, bind_ok, Int32.toInt32_toUInt32]
  | succ count ih =>
    rw [parse_from, UInt32.parse_from]
    cases s.get p with
    | ok ch =>
      rw [bind_ok, bind_ok]
      split
      · simp
      · rw [ih, Int32.toUInt32_add, Int32.toUInt32_mul, UInt32.toUInt32_toInt32]
        rfl
    | fail fault => rfl
    | div => rfl

theorem Int32.parse_eq (h : str.Refers bytes) {first : UInt8} {rest : List UInt8} (hbytes : bytes = first :: rest) :
    Int32.parse str = (do
      let (ret, val) ← UInt32.parse str
      ok (ret, val.toInt32 * if first = 45 then -1 else 1)) := by
  have hempty := h.length_ne_zero (by rw [hbytes]; exact List.cons_ne_nil _ _)
  have hfirst : str.get 0 = ok first := h.get_of_drop (by rw [hbytes]; rfl)
  rw [parse, UInt32.parse, if_neg hempty, if_neg hempty, hfirst, bind_ok, Int32.parse_from_eq]
  rfl

/-- A string of digits is never rejected; the number wraps around. -/
theorem Int32.parse_digits (h : str.Refers bytes) (hne : bytes ≠ []) (hdigits : ∀ ch ∈ bytes, IsDigit ch) :
    Int32.parse str = ok (kOk, Int32.ofNat (digits_value bytes)) := by
  obtain ⟨first, rest, hbytes⟩ := List.exists_cons_of_ne_nil hne
  have hfirst : first ≠ 45 := by
    rintro rfl
    exact absurd (hdigits 45 (by simp [hbytes])) (by decide)
  simp only [Int32.parse_eq h hbytes, UInt32.parse_digits h hne hdigits, bind_ok, if_neg hfirst, Int32.mul_one]
  rfl

/-- A string that does not start with a digit is rejected, whatever it starts with. -/
theorem Int32.parse_rejects (h : str.Refers bytes) {first : UInt8} {rest : List UInt8}
    (hbytes : bytes = first :: rest) (hfirst : ¬ IsDigit first) : Int32.parse str = ok (kEFormat, 0) := by
  have hget : str.get 0 = ok first := h.get_of_drop (by rw [hbytes]; rfl)
  have hlength : str.m_length.toNat = rest.length + 1 := by rw [h.length, hbytes, List.length_cons]
  have hempty := h.length_ne_zero (by rw [hbytes]; exact List.cons_ne_nil _ _)
  have hother : first < 48 ∨ first > 57 := by
    rw [IsDigit, not_and_or, UInt8.not_le, UInt8.not_le] at hfirst
    exact hfirst
  rw [Int32.parse_eq h hbytes, UInt32.parse, if_neg hempty, hlength, UInt32.parse_from, hget, bind_ok, if_pos hother]
  simp

/-- A string of digits is parsed, or rejected, as it should be if and only if the number
fits, by either parser. -/
theorem parse_fits_iff (h : str.Refers bytes) (hne : bytes ≠ []) (hdigits : ∀ ch ∈ bytes, IsDigit ch) :
    (ParsesBelow (UInt32.parse str) (fun val => val.toNat) (2 ^ 32) (digits_value bytes) ↔
        digits_value bytes < 2 ^ 32) ∧
      (ParsesBelow (Int32.parse str) Int32.toInt (2 ^ 31) (digits_value bytes) ↔
        digits_value bytes < 2 ^ 31) := by
  constructor
  · refine parses_below_iff (UInt32.parse_digits h hne hdigits) fun hn => ?_
    rw [UInt32.toNat_ofNat_of_lt' hn]
  · exact parses_below_iff (Int32.parse_digits h hne hdigits) Int32.toInt_ofNat_of_lt

theorem parse_fits_twelve :
    (ParsesBelow (UInt32.parse (.of_c_str (ascii "12"))) (fun val => val.toNat) (2 ^ 32) 12 ↔ 12 < 2 ^ 32) ∧
      (ParsesBelow (Int32.parse (.of_c_str (ascii "12"))) Int32.toInt (2 ^ 31) 12 ↔ 12 < 2 ^ 31) :=
  parse_fits_iff (ConstStringRef.refers_of_c_str (by decide)) (by decide +kernel) (by decide +kernel)

/-- `4294967296` is taken for zero, and `2147483648` for the least number. -/
theorem parse_wraps :
    UInt32.parse (.of_c_str (ascii "4294967296")) = ok (kOk, 0) ∧
      Int32.parse (.of_c_str (ascii "2147483648")) = ok (kOk, Int32.minValue) :=
  ⟨by decide +kernel, by decide +kernel⟩

/-- What a value is formatted as is parsed as that value. -/
def Int32.RoundTrips (value : Int32) : Prop :=
  ∃ text, Int32.to_string value Int32.kMaxStringLength = ok (kOk, text) ∧
    ∀ str : ConstStringRef, str.Refers text → Int32.parse str = ok (kOk, value)

/-- The values that are parsed back are those without a sign. -/
theorem Int32.round_trips_iff {value : Int32} (hmin : value ≠ Int32.minValue) :
    Int32.RoundTrips value ↔ 0 ≤ value := by
  have hstring := to_string_of_ne_min hmin Int32.kMaxStringLength
  have hlength := decimal_length_le_ten value
  rw [if_neg (Nat.not_lt.mpr (Nat.le_trans hlength (by decide)))] at hstring
  by_cases hneg : value < 0
  · -- the text is refused at its sign
    have htext := signed_decimal_of_neg (neg_iff_toInt_neg.mp hneg)
    refine iff_of_false ?_ (Int32.not_le.mpr hneg)
    rintro ⟨text, hformat, hparse⟩
    rw [hstring, ok.injEq, Prod.mk.injEq] at hformat
    obtain ⟨-, rfl⟩ := hformat
    have hshort : (signed_decimal value.toInt).length < 2 ^ 32 := by
      rw [htext, List.length_cons]
      omega
    have hrefers := ConstStringRef.refers_of_c_str hshort
    have hanswer := hparse _ hrefers
    rw [Int32.parse_rejects hrefers htext (by decide)] at hanswer
    cases hanswer
  · have hnonneg := Int.not_lt.mp (mt neg_iff_toInt_neg.mpr hneg)
    rw [signed_decimal_of_nonneg hnonneg] at hstring
    refine iff_of_true ⟨_, hstring, fun str hstr => ?_⟩ (Int32.not_lt.mp hneg)
    rw [Int32.parse_digits hstr (decimal_ne_nil _) (decimal_isDigit _), digits_value_decimal, ← abs_eq hmin,
      if_neg hneg]

theorem Int32.round_trips_twelve : Int32.RoundTrips 12 := (Int32.round_trips_iff (by decide)).mpr (by decide)

/-- `-1` is formatted but its text is refused. -/
theorem Int32.negative_refused :
    Int32.to_string (-1) Int32.kMaxStringLength = ok (kOk, ascii "-1") ∧
      Int32.parse (.of_c_str (ascii "-1")) = ok (kEFormat, 0) :=
  ⟨by decide +kernel, by decide +kernel⟩

end kfw
