import Kfw.Common.Integer

open exec Result

namespace kfw

/-- The loop of `Int32::to_string` that copies `buf` to `str_buf` from its end, with
`count` characters to go. -/
def Int32.to_string_copy (buf : List UInt8) : Nat → List UInt8 → Exec (List UInt8)
  | 0, str_buf => ok str_buf
  | count + 1, str_buf =>
    let i := buf.length - (count + 1)
    match buf[buf.length - i - 1]? with
    | none => fail .invalid_access
    | some ch =>
      if str_buf.length ≤ i then fail .invalid_access
      else to_string_copy buf count (str_buf.set i ch)

/-- `Int32::to_string` with the memory that `str_buf` points to and `str_len`. The sign
is added after the length was checked. -/
def Int32.to_string_into (value : Int32) (str_buf : List UInt8) (str_buf_len : UInt32) :
    Exec (ret_t × List UInt8 × UInt32) := do
  let sign := value
  let value := if value < 0 then -value else value
  let buf ← Int32.to_string_digits 11 value []
  if buf.length > str_buf_len.toNat then ok (kEArgument, str_buf, 0)
  else do
    let buf ← if sign < 0 then
        if buf.length = 11 then fail .invalid_access else ok (buf ++ [45])
      else ok buf
    let str_buf ← Int32.to_string_copy buf buf.length str_buf
    ok (kOk, str_buf, buf.length.toUInt32)

/-- The decimal text of an integer, with a minus sign if it is negative. -/
def signed_decimal (n : Int) : List UInt8 := ascii (toString n)

theorem signed_decimal_of_nonneg {n : Int} (hn : 0 ≤ n) : signed_decimal n = decimal n.natAbs := by
  obtain ⟨n, rfl⟩ := Int.eq_ofNat_of_zero_le hn
  rfl

theorem signed_decimal_of_neg {n : Int} (hn : n < 0) : signed_decimal n = 45 :: decimal n.natAbs := by
  obtain ⟨n, rfl⟩ := Int.eq_negSucc_of_lt_zero hn
  change ascii ("-" ++ Nat.repr (n + 1)) = _
  rw [ascii, String.toList_append, List.map_append]
  rfl

namespace Int32

variable {value : Int32}

theorem neg_iff_toInt_neg : value < 0 ↔ value.toInt < 0 := Int32.lt_iff_toInt_lt

theorem natAbs_lt (hmin : value ≠ Int32.minValue) : value.toInt.natAbs < 2 ^ 31 := by
  have hlow := value.le_toInt
  have hhigh := value.toInt_lt
  have hne : value.toInt ≠ -2 ^ 31 := by
    rw [← Int32.toInt_minValue, ne_eq, Int32.toInt_inj]
    exact hmin
  omega

/-- Every value but the least has its absolute value among the values. -/
theorem abs_eq (hmin : value ≠ Int32.minValue) :
    (if value < 0 then -value else value) = Int32.ofNat value.toInt.natAbs := by
  have hlt := natAbs_lt hmin
  rw [← Int32.toInt_inj, Int32.toInt_ofNat_of_lt hlt]
  split
  · rename_i hneg
    rw [neg_iff_toInt_neg] at hneg
    rw [Int32.toInt_neg, Int.bmod_eq_of_le (by omega) (by omega)]
    omega
  · rename_i hneg
    rw [neg_iff_toInt_neg] at hneg
    omega

/-- The digits that are put in `buf`, last digit first. For the least value, whose
negation is itself, they are not digits. -/
theorem digits_of_ne_min (hmin : value ≠ Int32.minValue) :
    Int32.to_string_digits 11 (if value < 0 then -value else value) [] =
      ok (decimal value.toInt.natAbs).reverse := by
  have hlt := natAbs_lt hmin
  have hlength : (decimal value.toInt.natAbs).length ≤ 11 := Nat.le_succ_of_le (decimal_length_of_lt (by omega))
  rw [abs_eq hmin, Int32.to_string_digits_spec hlt [] hlength, List.nil_append]

/-- For every value as many characters are put in `buf` as it has digits. -/
theorem digits_length (value : Int32) :
    ∃ buf, Int32.to_string_digits 11 (if value < 0 then -value else value) [] = ok buf ∧
      buf.length = (decimal value.toInt.natAbs).length := by
  by_cases hmin : value = Int32.minValue
  · subst hmin
    exact ⟨_, rfl, by decide⟩
  · exact ⟨_, digits_of_ne_min hmin, List.length_reverse⟩

theorem decimal_length_le_ten (value : Int32) : (decimal value.toInt.natAbs).length ≤ 10 := by
  have hlow := value.le_toInt
  have hhigh := value.toInt_lt
  exact decimal_length_of_lt (by omega)

theorem to_string_of_digits {buf : List UInt8}
    (hbuf : Int32.to_string_digits 11 (if value < 0 then -value else value) [] = ok buf)
    (hshort : buf.length ≤ 10) (str_buf_len : UInt32) :
    Int32.to_string value str_buf_len =
      if buf.length > str_buf_len.toNat then ok (kEArgument, [])
      else ok (kOk, if value < 0 then 45 :: buf.reverse else buf.reverse) := by
  have hroom : buf.length ≠ 11 := by omega
  simp only [Int32.to_string, hbuf, bind_ok, if_neg hroom, List.reverse_append, List.reverse_singleton,
    List.singleton_append]
  split
  · rfl
  · split <;> rfl

/-- The text is the decimal one, whatever the length of `str_buf`, if only its digits fit. -/
theorem to_string_of_ne_min (hmin : value ≠ Int32.minValue) (str_buf_len : UInt32) :
    Int32.to_string value str_buf_len =
      if (decimal value.toInt.natAbs).length > str_buf_len.toNat then ok (kEArgument, [])
      else ok (kOk, signed_decimal value.toInt) := by
  have hshort := decimal_length_le_ten value
  rw [to_string_of_digits (digits_of_ne_min hmin) (by rwa [List.length_reverse]), List.length_reverse,
    List.reverse_reverse]
  by_cases hneg : value < 0
  · rw [if_pos hneg, signed_decimal_of_neg (neg_iff_toInt_neg.mp hneg)]
  · rw [if_neg hneg, signed_decimal_of_nonneg (Int.not_lt.mp (mt neg_iff_toInt_neg.mpr hneg))]

theorem signed_decimal_length (value : Int32) : (signed_decimal value.toInt).length =
    (decimal value.toInt.natAbs).length + if value < 0 then 1 else 0 := by
  by_cases hneg : value < 0
  · rw [if_pos hneg, signed_decimal_of_neg (neg_iff_toInt_neg.mp hneg), List.length_cons]
  · rw [if_neg hneg, signed_decimal_of_nonneg (Int.not_lt.mp (mt neg_iff_toInt_neg.mpr hneg)), Nat.add_zero]

/-- The characters that are put in `str_buf`, for every value. -/
theorem to_string_answer (value : Int32) :
    ∃ text, text.length = (signed_decimal value.toInt).length ∧
      (value ≠ Int32.minValue → text = signed_decimal value.toInt) ∧
      ∀ str_buf_len, Int32.to_string value str_buf_len =
        if (decimal value.toInt.natAbs).length > str_buf_len.toNat then ok (kEArgument, []) else ok (kOk, text) := by
  by_cases hmin : value = Int32.minValue
  · obtain ⟨buf, hbuf, hlength⟩ := digits_length value
    have hshort := decimal_length_le_ten value
    refine ⟨_, ?_, fun hne => absurd hmin hne, fun str_buf_len =>
      hlength ▸ to_string_of_digits hbuf (by omega) str_buf_len⟩
    rw [signed_decimal_length, ← hlength]
    split
    · rw [List.length_cons, List.length_reverse]
    · rw [List.length_reverse, Nat.add_zero]
  · exact ⟨_, rfl, fun _ => rfl, to_string_of_ne_min hmin⟩

/-- The copied part of `buf` is at the start of `str_buf`; the induction is on what is
still to be copied. -/
theorem to_string_copy_spec {buf : List UInt8} {count : Nat} (hcount : count ≤ buf.length) (old : List UInt8) :
    Int32.to_string_copy buf count ((buf.drop count).reverse ++ old) =
      if old.length < count then fail .invalid_access
      else ok (buf.reverse ++ old.drop count) := by
  induction count generalizing old with
  | zero => simp [to_string_copy]
  | succ count ih =>
    have hlast : buf.length - (buf.length - (count + 1)) - 1 = count := by omega
    have hdrop : buf.drop count = buf[count] :: buf.drop (count + 1) := List.drop_eq_getElem_cons hcount
    simp only [to_string_copy, hlast, List.getElem?_eq_getElem hcount, List.length_append, List.length_reverse,
      List.length_drop]
    cases old with
    | nil => simp
    | cons ch old =>
      rw [if_neg (by rw [List.length_cons]; omega), List.set_append_right _ _ (by simp)]
      simp only [List.length_reverse, List.length_drop, Nat.sub_self, List.set_cons_zero, List.length_cons,
        Nat.add_lt_add_iff_right, List.drop_succ_cons]
      rw [← ih (Nat.le_of_succ_le hcount), hdrop, List.reverse_cons, List.append_assoc]
      rfl

theorem to_string_copy_eq (buf str_buf : List UInt8) :
    Int32.to_string_copy buf buf.length str_buf =
      if str_buf.length < buf.length then fail .invalid_access
      else ok (buf.reverse ++ str_buf.drop buf.length) := by
  have hspec := to_string_copy_spec (Nat.le_refl buf.length) str_buf
  rwa [List.drop_length, List.reverse_nil, List.nil_append] at hspec

/-- `to_string` gives the characters that are put in `str_buf`. -/
theorem to_string_into_eq (value : Int32) (str_buf : List UInt8) (str_buf_len : UInt32) :
    Int32.to_string_into value str_buf str_buf_len = (do
      let (r, text) ← Int32.to_string value str_buf_len
      if str_buf.length < text.length then fail .invalid_access
      else ok (r, text ++ str_buf.drop text.length, text.length.toUInt32)) := by
  obtain ⟨buf, hbuf, hlength⟩ := digits_length value
  have hshort := decimal_length_le_ten value
  have hroom : buf.length ≠ 11 := by omega
  rw [to_string_of_digits hbuf (by omega)]
  simp only [to_string_into, hbuf, bind_ok, if_neg hroom, to_string_copy_eq, List.length_append, List.length_singleton,
    List.reverse_append, List.reverse_singleton, List.singleton_append]
  by_cases hfits : buf.length > str_buf_len.toNat
  · rw [if_pos hfits, if_pos hfits]
    rfl
  · rw [if_neg hfits, if_neg hfits, bind_ok]
    by_cases hneg : value < 0
    · simp only [if_pos hneg, List.length_cons, List.length_reverse]
      split <;> rfl
    · simp only [if_neg hneg, List.length_reverse]
      split <;> rfl

/-- The value is formatted into the `str_buf_len` characters of `str_buf` if and only if
its text fits. Then the text is put at the start of `str_buf`, whatever was there
before, and `str_len` is the number of its characters; otherwise nothing is put there. The
text has the length of the decimal one and is that one but for the least value. -/
def FormatsWithin (value : Int32) (str_buf_len : UInt32) : Prop :=
  ∃ text, text.length = (signed_decimal value.toInt).length ∧
    (value ≠ Int32.minValue → text = signed_decimal value.toInt) ∧
    ∀ str_buf : List UInt8, str_buf.length = str_buf_len.toNat →
      ∃ r str_buf' str_len, Int32.to_string_into value str_buf str_buf_len = ok (r, str_buf', str_len) ∧
        (r = kOk ↔ text.length ≤ str_buf_len.toNat) ∧
        (r = kOk → str_buf' = text ++ str_buf.drop text.length ∧ str_len.toNat = text.length) ∧
        (r ≠ kOk → str_buf' = str_buf ∧ str_len = 0)

/-- Digits that do not fit leave `str_buf` as it was. -/
theorem to_string_into_long {str_buf_len : UInt32}
    (hlong : (decimal value.toInt.natAbs).length > str_buf_len.toNat) (str_buf : List UInt8) :
    Int32.to_string_into value str_buf str_buf_len = ok (kEArgument, str_buf, 0) := by
  obtain ⟨text, -, -, hstring⟩ := to_string_answer value
  rw [to_string_into_eq, hstring, if_pos hlong]
  rfl

/-- Formatting respects the length of `str_buf` exactly if it is not given a negative
value and room for all of its digits but not for the sign. -/
theorem formats_within_iff (value : Int32) (str_buf_len : UInt32) :
    FormatsWithin value str_buf_len ↔
      ¬ (value < 0 ∧ str_buf_len.toNat = (decimal value.toInt.natAbs).length) := by
  have hsigned := signed_decimal_length value
  obtain ⟨text, htext, hdecimal, hstring⟩ := to_string_answer value
  constructor
  · rintro ⟨_, -, -, hformats⟩ ⟨hneg, hroom⟩
    -- the sign is put behind the end of `str_buf`
    obtain ⟨r, str_buf', str_len, hinto, -⟩ := hformats (List.replicate str_buf_len.toNat 0) List.length_replicate
    rw [if_pos hneg] at hsigned
    rw [to_string_into_eq, hstring, if_neg (by omega), bind_ok] at hinto
    simp only [List.length_replicate, show str_buf_len.toNat < text.length by omega, if_true] at hinto
    cases hinto
  · intro hnot
    refine ⟨text, htext, hdecimal, fun str_buf hmemory => ?_⟩
    by_cases hlong : (decimal value.toInt.natAbs).length > str_buf_len.toNat
    · refine ⟨kEArgument, str_buf, 0, to_string_into_long hlong str_buf, ?_, ?_, fun _ => ⟨rfl, rfl⟩⟩
      · exact iff_of_false (by decide) (by omega)
      · exact fun hr => absurd hr (by decide)
    · have hfits : text.length ≤ str_buf_len.toNat := by
        split at hsigned
        · rename_i hneg
          have hne : str_buf_len.toNat ≠ (decimal value.toInt.natAbs).length := fun hroom => hnot ⟨hneg, hroom⟩
          omega
        · omega
      have hlength : text.length.toUInt32.toNat = text.length :=
        Nat.mod_eq_of_lt (Nat.lt_of_le_of_lt hfits str_buf_len.toNat_lt)
      refine ⟨kOk, _, _, ?_, iff_of_true rfl hfits, fun _ => ⟨rfl, hlength⟩, fun hr => absurd rfl hr⟩
      rw [to_string_into_eq, hstring, if_neg hlong, bind_ok]
      simp only [if_neg (show ¬ str_buf.length < text.length by omega)]

/-- Three characters are enough for `-12`. -/
theorem formats_within_three : FormatsWithin (-12) 3 := (formats_within_iff (-12) 3).mpr (by decide)

/-- Two are not, but they are for its digits: the last one is put behind the end. -/
theorem formats_beyond_two : Int32.to_string_into (-12) [0, 0] 2 = fail .invalid_access := rfl

end Int32

end kfw
