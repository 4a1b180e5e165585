import Kfw.Common.StringRef

open exec Result

namespace kfw

/-- The loop of `UInt32::parse` with `count` characters to go. -/
def UInt32.parse_from (s : ConstStringRef) : Nat → UInt32 → UInt32 → Exec (ret_t × UInt32)
  | 0, _, r => ok (kOk, r)
  | count + 1, p, r => do
    let ch ← s.get p
    if ch < 48 ∨ ch > 57 then ok (kEFormat, 0)
    else parse_from s count (p + 1) (r * 10 + (ch - 48).toUInt32)

/-- The value is zero unless the whole string is a number; there is no check
against overflow. -/
def UInt32.parse (s : ConstStringRef) : Exec (ret_t × UInt32) :=
  if s.m_length = 0 then ok (kEFormat, 0)
  else UInt32.parse_from s s.m_length.toNat 0 0

def UInt32.kMaxStringLength : UInt32 := 10

/-- The digit loop of `UInt32::to_string`: `buf` has been filled, last digit
first, and has `room` for more. -/
def UInt32.to_string_digits : Nat → UInt32 → List UInt8 → Exec (List UInt8)
  | 0, _, _ => fail .invalid_access
  | room + 1, value, buf =>
    let digit := value % 10
    let buf := buf ++ [(digit + 48).toUInt8]
    let value := value / 10
    if value ≠ 0 then to_string_digits room value buf else ok buf

/-- The characters put in `str_buf`, `str_len` of them. -/
def UInt32.to_string (value str_buf_len : UInt32) : Exec (ret_t × List UInt8) := do
  let buf ← UInt32.to_string_digits 10 value []
  if buf.length > str_buf_len.toNat then ok (kEArgument, [])
  else ok (kOk, buf.reverse)

def Int32.kMaxStringLength : UInt32 := 11

/-- The digit loop of `Int32::to_string`. -/
def Int32.to_string_digits : Nat → Int32 → List UInt8 → Exec (List UInt8)
  | 0, _, _ => fail .invalid_access
  | room + 1, value, buf =>
    let digit := (value % 10).toUInt32
    let buf := buf ++ [(digit + 48).toUInt8]
    let value := value / 10
    if value ≠ 0 then to_string_digits room value buf else ok buf

def Int32.to_string (value : Int32) (str_buf_len : UInt32) : Exec (ret_t × List UInt8) := do
  let sign := value
  let value := if value < 0 then -value else value
  let buf ← Int32.to_string_digits 11 value []
  if buf.length > str_buf_len.toNat then ok (kEArgument, [])
  else if sign < 0 then
    if buf.length = 11 then fail .invalid_access
    else ok (kOk, (buf ++ [45]).reverse)
  else ok (kOk, buf.reverse)

/-- The decimal digits of a number. -/
def decimal (n : Nat) : List UInt8 := ascii (toString n)

/-- The number that a string of digits stands for. -/
def digits_value (digits : List UInt8) : Nat := digits.foldl (fun value ch => value * 10 + (ch.toNat - 48)) 0

def IsDigit (ch : UInt8) : Prop := 48 ≤ ch ∧ ch ≤ 57

instance (ch : UInt8) : Decidable (IsDigit ch) := inferInstanceAs (Decidable (_ ∧ _))

theorem digitChar_toNat {d : Nat} (hd : d < 10) : (Nat.digitChar d).toNat.toUInt8 = (d + 48).toUInt8 := by
  interval_cases d <;> rfl

theorem decimal_of_lt {n : Nat} (hn : n < 10) : decimal n = [(n + 48).toUInt8] := by
  rw [decimal, ascii, Nat.toString_eq_repr, Nat.toList_repr, Nat.toDigits_of_lt_base hn]
  simp only [List.map_cons, List.map_nil, digitChar_toNat hn]

theorem decimal_of_le {n : Nat} (hn : 10 ≤ n) :
    decimal n = decimal (n / 10) ++ [(n % 10 + 48).toUInt8] := by
  simp only [decimal, ascii, Nat.toString_eq_repr, Nat.toList_repr]
  rw [Nat.toDigits_of_base_le (by decide) hn, List.map_append, List.map_cons, List.map_nil,
    digitChar_toNat (Nat.mod_lt _ (by decide))]

theorem decimal_length_le {n count : Nat} (hcount : 0 < count) :
    (decimal n).length ≤ count ↔ n < 10 ^ count := by
  rw [decimal, ascii, List.length_map, Nat.toString_eq_repr, Nat.toList_repr]
  exact Nat.length_toDigits_le_iff (by decide) hcount

/-- A number of 32 bits has at most ten digits. -/
theorem decimal_length_of_lt {n : Nat} (hn : n < 2 ^ 32) : (decimal n).length ≤ 10 := by
  rw [decimal_length_le (by decide)]
  omega

theorem decimal_ne_nil (n : Nat) : decimal n ≠ [] := by
  rw [decimal, ascii, ne_eq, List.map_eq_nil_iff, Nat.toString_eq_repr, Nat.toList_repr]
  exact Nat.toDigits_ne_nil

theorem digit_toNat {d : Nat} (hd : d < 10) : ((d + 48).toUInt8).toNat = d + 48 :=
  Nat.mod_eq_of_lt (by omega)

theorem decimal_isDigit (n : Nat) : ∀ ch ∈ decimal n, IsDigit ch := by
  have hdigit : ∀ d < 10, IsDigit (d + 48).toUInt8 := by
    intro d hd
    have hd48 := digit_toNat hd
    refine ⟨UInt8.le_iff_toNat_le.mpr ?_, UInt8.le_iff_toNat_le.mpr ?_⟩
    · change 48 ≤ _
      omega
    · change _ ≤ 57
      omega
  induction n using Nat.strongRecOn with
  | ind n ih =>
    by_cases hn : n < 10
    · rw [decimal_of_lt hn]
      simpa using hdigit n hn
    · intro ch hch
      rw [decimal_of_le (by omega), List.mem_append, List.mem_singleton] at hch
      rcases hch with hch | rfl
      · exact ih (n / 10) (by omega) ch hch
      · exact hdigit _ (Nat.mod_lt _ (by decide))

theorem digits_value_decimal (n : Nat) : digits_value (decimal n) = n := by
  induction n using Nat.strongRecOn with
  | ind n ih =>
    by_cases hn : n < 10
    · simp only [decimal_of_lt hn, digits_value, List.foldl_cons, List.foldl_nil, digit_toNat hn]
      omega
    · have hrest := ih (n / 10) (by omega)
      have hlast := digit_toNat (Nat.mod_lt n (by decide : 0 < 10))
      rw [digits_value] at hrest
      simp only [decimal_of_le (Nat.le_of_not_lt hn), digits_value, List.foldl_append, List.foldl_cons,
        List.foldl_nil, hrest, hlast]
      omega

/-- Formatting puts the digits in the buffer last digit first. -/
theorem UInt32.to_string_digits_spec {value : UInt32} {room : Nat} (buf : List UInt8)
    (hroom : (decimal value.toNat).length ≤ room) :
    UInt32.to_string_digits room value buf = ok (buf ++ (decimal value.toNat).reverse) := by
  induction room generalizing value buf with
  | zero => exact absurd (List.eq_nil_of_length_eq_zero (Nat.le_zero.mp hroom)) (decimal_ne_nil _)
  | succ room ih =>
    have hdiv : (value / 10).toNat = value.toNat / 10 := UInt32.toNat_div _ _
    have hmod : (value % 10).toNat = value.toNat % 10 := UInt32.toNat_mod _ _
    have hdigit : (value % 10 + 48).toUInt8 = (value.toNat % 10 + 48).toUInt8 := by
      rw [← UInt8.toNat_inj, digit_toNat (Nat.mod_lt _ (by decide)), UInt32.toNat_toUInt8,
        UInt32.toNat_add, hmod]
      change (value.toNat % 10 + 48) % 2 ^ 32 % 2 ^ 8 = _
      omega
    simp only [to_string_digits, hdigit]
    by_cases hn : value.toNat < 10
    · have hzero : value / 10 = 0 := UInt32.toNat_inj.mp (by rw [hdiv]; change _ = 0; omega)
      rw [if_neg (by simpa using hzero), decimal_of_lt hn, Nat.mod_eq_of_lt hn]
      rfl
    · have hnonzero : value / 10 ≠ 0 := by
        intro hzero
        rw [hzero] at hdiv
        change 0 = _ at hdiv
        omega
      have hdigits := decimal_of_le (Nat.le_of_not_lt hn)
      rw [hdigits, List.length_append, List.length_singleton, ← hdiv] at hroom
      rw [if_pos hnonzero, ih _ (by omega), hdigits, hdiv, List.reverse_append, List.append_assoc]
      rfl

theorem UInt32.to_string_spec (value : UInt32) :
    UInt32.to_string value UInt32.kMaxStringLength = ok (kOk, decimal value.toNat) := by
  have hlength := decimal_length_of_lt value.toNat_lt
  have hroom : ¬ (decimal value.toNat).length > UInt32.kMaxStringLength.toNat := Nat.not_lt.mpr hlength
  simp [UInt32.to_string, UInt32.to_string_digits_spec [] hlength, hroom]

/-- The same for a signed value that is not negative. -/
theorem Int32.to_string_digits_spec {n : Nat} (hn : n < 2 ^ 31) {room : Nat} (buf : List UInt8)
    (hroom : (decimal n).length ≤ room) :
    Int32.to_string_digits room (Int32.ofNat n) buf = ok (buf ++ (decimal n).reverse) := by
  induction room generalizing n buf with
  | zero => exact absurd (List.eq_nil_of_length_eq_zero (Nat.le_zero.mp hroom)) (decimal_ne_nil _)
  | succ room ih =>
    have hdiv : Int32.ofNat n / 10 = Int32.ofNat (n / 10) := (Int32.ofNat_div hn (by decide)).symm
    have hmod : Int32.ofNat n % 10 = Int32.ofNat (n % 10) := (Int32.ofNat_mod hn (by decide)).symm
    have hdigit : ((Int32.ofNat (n % 10)).toUInt32 + 48).toUInt8 = (n % 10 + 48).toUInt8 := by
      rw [← UInt8.toNat_inj, digit_toNat (Nat.mod_lt _ (by decide)), UInt32.toNat_toUInt8,
        UInt32.toNat_add]
      change (n % 10 % 2 ^ 32 + 48) % 2 ^ 32 % 2 ^ 8 = _
      omega
    have hzero : Int32.ofNat (n / 10) = 0 ↔ n / 10 = 0 := by
      rw [← Int32.toInt_inj, Int32.toInt_ofNat_of_lt (by omega)]
      change ((n / 10 : Nat) : Int) = 0 ↔ _
      omega
    simp only [to_string_digits, hdiv, hmod, hdigit]
    by_cases hsmall : n < 10
    · rw [if_neg (by rw [ne_eq, hzero]; omega), decimal_of_lt hsmall, Nat.mod_eq_of_lt hsmall]
      rfl
    · have hdigits := decimal_of_le (Nat.le_of_not_lt hsmall)
      rw [hdigits, List.length_append, List.length_singleton] at hroom
      rw [if_pos (by rw [ne_eq, hzero]; omega), ih (by omega) _ (by omega), hdigits, List.reverse_append,
        List.append_assoc]
      rfl

theorem Int32.to_string_spec {n : Nat} (hn : n < 2 ^ 31) :
    Int32.to_string (Int32.ofNat n) Int32.kMaxStringLength = ok (kOk, decimal n) := by
  have hlength : (decimal n).length ≤ 11 := Nat.le_succ_of_le (decimal_length_of_lt (by omega))
  have hroom : ¬ (decimal n).length > Int32.kMaxStringLength.toNat := Nat.not_lt.mpr hlength
  have hsign : ¬ Int32.ofNat n < 0 := by
    rw [Int32.lt_iff_toInt_lt, Int32.toInt_ofNat_of_lt hn]
    change ¬ (n : Int) < 0
    omega
  simp [Int32.to_string, Int32.to_string_digits_spec hn [] hlength, hroom, hsign]

theorem Int32.natAbs_div_ten (value : Int32) : (value / 10).toInt.natAbs = value.toInt.natAbs / 10 := by
  rw [Int32.toInt_div_of_ne_right _ _ (by decide)]
  exact Int.natAbs_tdiv _ _

/-- The digit loop comes back whatever the value, within the digits it has. -/
theorem Int32.to_string_digits_total {count room : Nat} (hroom : count < room) {value : Int32}
    (hvalue : value.toInt.natAbs < 10 ^ (count + 1)) (buf : List UInt8) :
    ∃ digits, Int32.to_string_digits room value buf = ok (buf ++ digits) ∧ digits.length ≤ count + 1 := by
  induction count generalizing room value buf with
  | zero =>
    obtain ⟨room, rfl⟩ : ∃ rest, room = rest + 1 := ⟨room - 1, by omega⟩
    have hzero : value / 10 = 0 := by
      rw [← Int32.toInt_inj]
      change (value / 10).toInt = 0
      have habs := Int32.natAbs_div_ten value
      omega
    refine ⟨[((value % 10).toUInt32 + 48).toUInt8], ?_, by simp⟩
    simp only [to_string_digits, hzero, ne_eq, not_true, if_false]
  | succ count ih =>
    obtain ⟨room, rfl⟩ : ∃ rest, room = rest + 1 := ⟨room - 1, by omega⟩
    unfold to_string_digits
    by_cases hzero : value / 10 = 0
    · refine ⟨[((value % 10).toUInt32 + 48).toUInt8], ?_, by simp⟩
      simp only [hzero, ne_eq, not_true, if_false]
    · have hless : (value / 10).toInt.natAbs < 10 ^ (count + 1) := by
        rw [Int32.natAbs_div_ten, Nat.div_lt_iff_lt_mul (by decide)]
        exact hvalue
      obtain ⟨digits, hdigits, hlength⟩ := ih (by omega : count < room) hless
        (buf ++ [((value % 10).toUInt32 + 48).toUInt8])
      refine ⟨((value % 10).toUInt32 + 48).toUInt8 :: digits, ?_, by simpa using hlength⟩
      simp only [ne_eq, hzero, not_false_eq_true, if_true, hdigits, List.append_assoc, List.singleton_append]

theorem Int32.to_string_total (value : Int32) :
    ∃ text, Int32.to_string value Int32.kMaxStringLength = ok (kOk, text) := by
  have hsize : ∀ value : Int32, value.toInt.natAbs < 10 ^ (9 + 1) := by
    intro value
    have hlow := value.le_toInt
    have hhigh := value.toInt_lt
    omega
  obtain ⟨digits, hdigits, hlength⟩ := Int32.to_string_digits_total (by decide : 9 < 11)
    (hsize (if value < 0 then -value else value)) []
  have hroom : ¬ digits.length > Int32.kMaxStringLength.toNat := by
    change ¬ digits.length > 11
    omega
  unfold Int32.to_string
  simp only [hdigits, List.nil_append, bind_ok, if_neg hroom]
  split
  · exact ⟨_, if_neg (by omega)⟩
  · exact ⟨_, rfl⟩

/-- What a value is formatted as. -/
def Int32.text (value : Int32) : List UInt8 :=
  match Int32.to_string value Int32.kMaxStringLength with
  | .ok (_, text) => text
  | _ => []

theorem Int32.to_string_eq (value : Int32) :
    Int32.to_string value Int32.kMaxStringLength = ok (kOk, Int32.text value) := by
  obtain ⟨text, htext⟩ := Int32.to_string_total value
  rw [Int32.text, htext]

open ConstStringRef

variable {str : ConstStringRef} {bytes : List UInt8}

/-- Parsing always comes back, and on digits with their value. -/
theorem UInt32.parse_from_spec (h : str.Refers bytes) {rest : List UInt8} {p : UInt32}
    (hdrop : bytes.drop p.toNat = rest) (value : Nat) :
    ∃ r val, UInt32.parse_from str rest.length p (UInt32.ofNat value) = ok (r, val) ∧
      ((∀ ch ∈ rest, IsDigit ch) → r = kOk ∧
        val = UInt32.ofNat (rest.foldl (fun value ch => value * 10 + (ch.toNat - 48)) value)) := by
  induction rest generalizing p value with
  | nil => exact ⟨kOk, _, rfl, fun _ => ⟨rfl, rfl⟩⟩
  | cons ch rest ih =>
    obtain ⟨_, hrest⟩ := drop_add_one h.length_lt hdrop
    rw [List.length_cons, UInt32.parse_from, h.get_of_drop hdrop]
    by_cases hdigit : ch < 48 ∨ ch > 57
    · refine ⟨kEFormat, 0, by simp [hdigit], fun hall => ?_⟩
      have hch := hall ch (by simp)
      rcases hdigit with hlow | hhigh
      · exact absurd hch.1 (UInt8.not_le.mpr hlow)
      · exact absurd hch.2 (UInt8.not_le.mpr hhigh)
    · have hvalue : UInt32.ofNat value * 10 + (ch - 48).toUInt32 =
          UInt32.ofNat (value * 10 + (ch.toNat - 48)) := by
        rw [not_or, UInt8.not_lt] at hdigit
        rw [UInt32.ofNat_add, UInt32.ofNat_mul, ← UInt32.toNat_inj, UInt32.toNat_add, UInt32.toNat_add,
          UInt8.toNat_toUInt32, UInt8.toNat_sub_of_le _ _ hdigit.1, UInt32.toNat_ofNat']
        simp
      obtain ⟨r, val, hparse, hdigits⟩ := ih hrest (value * 10 + (ch.toNat - 48))
      refine ⟨r, val, by simpa only [bind_ok, if_neg hdigit, hvalue] using hparse, fun hall => ?_⟩
      exact hdigits fun other hother => hall other (by simp [hother])

theorem UInt32.parse_total (h : str.Refers bytes) : ∃ r val, UInt32.parse str = ok (r, val) := by
  by_cases hempty : str.m_length = 0
  · exact ⟨kEFormat, 0, by rw [UInt32.parse, if_pos hempty]⟩
  · have hstart : bytes.drop (0 : UInt32).toNat = bytes := rfl
    obtain ⟨r, val, hparse, _⟩ := UInt32.parse_from_spec h hstart 0
    exact ⟨r, val, by rw [UInt32.parse, if_neg hempty, h.length]; exact hparse⟩

theorem UInt32.parse_digits (h : str.Refers bytes) (hne : bytes ≠ [])
    (hdigits : ∀ ch ∈ bytes, IsDigit ch) :
    UInt32.parse str = ok (kOk, UInt32.ofNat (digits_value bytes)) := by
  have hempty := h.length_ne_zero hne
  have hstart : bytes.drop (0 : UInt32).toNat = bytes := rfl
  obtain ⟨r, val, hparse, hvalue⟩ := UInt32.parse_from_spec h hstart 0
  obtain ⟨rfl, rfl⟩ := hvalue hdigits
  rw [UInt32.parse, if_neg hempty, h.length]
  exact hparse

end kfw
