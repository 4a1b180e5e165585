import Kfw.Common.Integer.Format

open exec Result

namespace kfw

/-- `UInt32::to_string` with the memory that `str_buf` points to and `str_len`; its
digits are copied as those of `Int32::to_string` are. -/
def UInt32.to_string_into (value : UInt32) (str_buf : List UInt8) (str_buf_len : UInt32) :
    Exec (ret_t × List UInt8 × UInt32) := do
  let buf ← UInt32.to_string_digits 10 value []
  if buf.length > str_buf_len.toNat then ok (kEArgument, str_buf, 0)
  else do
    let str_buf ← Int32.to_string_copy buf buf.length str_buf
    ok (kOk, str_buf, buf.length.toUInt32)

/-- Digits that begin with a zero only if there is no other one. -/
structure Canonical (digits : List UInt8) : Prop where
  ne_nil : digits ≠ []
  isDigit : ∀ ch ∈ digits, IsDigit ch
  zero : digits.head? = some 48 → digits = [48]

theorem digits_value_concat (front : List UInt8) (ch : UInt8) :
    digits_value (front ++ [ch]) = digits_value front * 10 + (ch.toNat - 48) := by
  rw [digits_value, List.foldl_append]
  rfl

theorem IsDigit.toNat_bounds {ch : UInt8} (h : IsDigit ch) : 48 ≤ ch.toNat ∧ ch.toNat ≤ 57 :=
  ⟨UInt8.le_iff_toNat_le.mp h.1, UInt8.le_iff_toNat_le.mp h.2⟩

theorem IsDigit.eq_toUInt8 {ch : UInt8} (h : IsDigit ch) : (ch.toNat - 48 + 48).toUInt8 = ch := by
  obtain ⟨hlow, hhigh⟩ := h.toNat_bounds
  rw [← UInt8.toNat_inj, digit_toNat (by omega)]
  omega

theorem eq_zero_of_decimal_head {n : Nat} (hhead : (decimal n).head? = some 48) : n = 0 := by
  induction n using Nat.strongRecOn with
  | ind n ih =>
    by_cases hn : n < 10
    · rw [decimal_of_lt hn, List.head?_cons, Option.some.injEq] at hhead
      have hdigit := digit_toNat hn
      rw [hhead] at hdigit
      change 48 = n + 48 at hdigit
      omega
    · rw [decimal_of_le (Nat.le_of_not_lt hn), List.head?_append_of_ne_nil _ (decimal_ne_nil _)] at hhead
      have hfront := ih (n / 10) (by omega) hhead
      omega

/-- The digits of a number are canonical. -/
theorem decimal_canonical (n : Nat) : Canonical (decimal n) := by
  refine ⟨decimal_ne_nil n, decimal_isDigit n, fun hhead => ?_⟩
  rw [eq_zero_of_decimal_head hhead]
  rfl

/-- Canonical digits are those of the number they stand for; the induction takes the last
digit away. -/
theorem Canonical.eq_decimal {digits : List UInt8} (h : Canonical digits) :
    digits = decimal (digits_value digits) := by
  induction digits using List.reverseRecOn with
  | nil => exact absurd rfl h.ne_nil
  | append_singleton front ch ih =>
    have hch : IsDigit ch := h.isDigit ch (by simp)
    obtain ⟨hlow, hhigh⟩ := hch.toNat_bounds
    rw [digits_value_concat]
    by_cases hfront : front = []
    · have hvalue : digits_value front = 0 := by
        rw [hfront]
        rfl
      rw [hvalue, Nat.zero_mul, Nat.zero_add, decimal_of_lt (by omega), hch.eq_toUInt8, hfront, List.nil_append]
    · have hhead : front.head? ≠ some 48 := by
        intro hhead
        have hlength := congrArg List.length (h.zero (by rw [List.head?_append_of_ne_nil _ hfront, hhead]))
        rw [List.length_append, List.length_singleton, List.length_singleton] at hlength
        exact hfront (List.length_eq_zero_iff.mp (by omega))
      have hcanonical : Canonical front :=
        ⟨hfront, fun other hother => h.isDigit other (List.mem_append_left _ hother), fun hzero => absurd hzero hhead⟩
      have hdecimal := ih hcanonical
      have hpos : digits_value front ≠ 0 := by
        intro hzero
        rw [hzero] at hdecimal
        rw [hdecimal] at hhead
        exact hhead rfl
      have hdiv : (digits_value front * 10 + (ch.toNat - 48)) / 10 = digits_value front := by omega
      have hmod : (digits_value front * 10 + (ch.toNat - 48)) % 10 = ch.toNat - 48 := by omega
      rw [decimal_of_le (by omega), hdiv, hmod, hch.eq_toUInt8, ← hdecimal]

/-- Every value is formatted without leaving `buf` or `str_buf`. -/
theorem UInt32.to_string_into_spec (value : UInt32) {str_buf : List UInt8}
    (hmemory : str_buf.length = UInt32.kMaxStringLength.toNat) :
    UInt32.to_string_into value str_buf UInt32.kMaxStringLength =
      ok (kOk, decimal value.toNat ++ str_buf.drop (decimal value.toNat).length,
        (decimal value.toNat).length.toUInt32) := by
  have hlength := decimal_length_of_lt value.toNat_lt
  have hroom : ¬ (decimal value.toNat).length > UInt32.kMaxStringLength.toNat := Nat.not_lt.mpr hlength
  have hfits : ¬ str_buf.length < (decimal value.toNat).length := by rwa [hmemory]
  simp only [UInt32.to_string_into, UInt32.to_string_digits_spec [] hlength, List.nil_append, bind_ok,
    List.length_reverse, if_neg hroom]
  rw [← List.length_reverse, Int32.to_string_copy_eq, List.length_reverse, if_neg hfits, bind_ok, List.reverse_reverse]

/-- Formatting and parsing take each value to its canonical digits and back. -/
theorem UInt32.round_trips {str_buf : List UInt8} (hmemory : str_buf.length = UInt32.kMaxStringLength.toNat) :
    (∀ value, ∃ text, Canonical text ∧
      UInt32.to_string_into value str_buf UInt32.kMaxStringLength =
        ok (kOk, text ++ str_buf.drop text.length, text.length.toUInt32) ∧
      ∀ str : ConstStringRef, str.Refers text → UInt32.parse str = ok (kOk, value)) ∧
    ∀ (digits : List UInt8) (str : ConstStringRef), Canonical digits → digits_value digits < 2 ^ 32 →
      str.Refers digits → ∃ value, UInt32.parse str = ok (kOk, value) ∧
        UInt32.to_string_into value str_buf UInt32.kMaxStringLength =
          ok (kOk, digits ++ str_buf.drop digits.length, digits.length.toUInt32) := by
  constructor
  · intro value
    refine ⟨decimal value.toNat, decimal_canonical _, to_string_into_spec value hmemory, fun str hstr => ?_⟩
    rw [UInt32.parse_digits hstr (decimal_ne_nil _) (decimal_isDigit _), digits_value_decimal, UInt32.ofNat_toNat]
  · intro digits str hcanonical hvalue hstr
    refine ⟨UInt32.ofNat (digits_value digits),
      UInt32.parse_digits hstr hcanonical.ne_nil hcanonical.isDigit, ?_⟩
    rw [to_string_into_spec _ hmemory, UInt32.toNat_ofNat_of_lt' hvalue, ← hcanonical.eq_decimal]

/-- The digits of the largest value fill the whole of both buffers. -/
theorem UInt32.round_trips_max :
    ∃ value, UInt32.parse (.of_c_str (ascii "4294967295")) = ok (kOk, value) ∧
      UInt32.to_string_into value (List.replicate 10 0) UInt32.kMaxStringLength =
        ok (kOk, ascii "4294967295" ++ [], 10) := by
  have hdigits : Canonical (ascii "4294967295") := ⟨by decide, by decide +kernel, by decide +kernel⟩
  have hvalue : digits_value (ascii "4294967295") < 2 ^ 32 := by decide +kernel
  have hrefers : (ConstStringRef.of_c_str (ascii "4294967295")).Refers (ascii "4294967295") :=
    ConstStringRef.refers_of_c_str (by decide)
  exact (UInt32.round_trips List.length_replicate).2 _ _ hdigits hvalue hrefers

end kfw
