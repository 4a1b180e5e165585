import Kfw.Common.Base

open exec Result

namespace kfw

/-- The bytes of a C string literal. -/
def ascii (literal : String) : List UInt8 := literal.toList.map fun ch => ch.toNat.toUInt8

/-- A `ConstStringRef`: the memory that can be read from its pointer on, and
the length. -/
structure ConstStringRef where
  m_data : List UInt8 := []
  m_length : UInt32 := 0

namespace ConstStringRef

def of_c_str (c_str : List UInt8) : ConstStringRef :=
  { m_data := c_str, m_length := c_str.length.toUInt32 }

/-- `operator []`, which does not look at the length. -/
def get (self : ConstStringRef) (index : UInt32) : Exec UInt8 :=
  match self.m_data[index.toNat]? with
  | none => fail .invalid_access
  | some ch => ok ch

/-- The loop of `index_of` with `count` positions to go. -/
def index_of_from (self : ConstStringRef) (ch : UInt8) : Nat → UInt32 → Exec Int32
  | 0, _ => ok (-1)
  | count + 1, p => do
    if (← self.get p) = ch then ok p.toInt32
    else self.index_of_from ch count (p + 1)

def index_of (self : ConstStringRef) (ch : UInt8) (start_index : UInt32) : Exec Int32 :=
  self.index_of_from ch (self.m_length.toNat - start_index.toNat) start_index

def sub_string (self : ConstStringRef) (index length : UInt32) : ConstStringRef :=
  { m_data := self.m_data.drop index.toNat, m_length := length }

/-- `sub_string` without a length: up to the end. -/
def sub_string_from (self : ConstStringRef) (index : UInt32) : ConstStringRef :=
  self.sub_string index (self.m_length - index)

/-- The first loop of `trim`, with `count` positions to go. -/
def trim_head (self : ConstStringRef) : Nat → UInt32 → Exec UInt32
  | 0, h => ok h
  | count + 1, h => do
    if (← self.get h) ≠ 32 then ok h
    else self.trim_head count (h + 1)

/-- The second loop of `trim`, which goes down from position `count`. -/
def trim_end (self : ConstStringRef) : Nat → Exec UInt32
  | 0 => ok 0
  | count + 1 => do
    if (← self.get count.toUInt32) ≠ 32 then ok (count + 1).toUInt32
    else self.trim_end count

def trim (self : ConstStringRef) : Exec ConstStringRef :=
  if self.m_length = 0 then ok self
  else do
    let h ← self.trim_head self.m_length.toNat 0
    if h = self.m_length then ok {}
    else do
      let e ← self.trim_end self.m_length.toNat
      ok (self.sub_string h (e - h))

/-- An upper-case letter as the lower-case one. -/
def to_lower (ch : UInt8) : UInt8 := if 65 ≤ ch ∧ ch ≤ 90 then ch - 65 + 97 else ch

/-- The loop of `compare_ignore_case` with `count` positions to go. -/
def compare_from (self obj : ConstStringRef) : Nat → UInt32 → Exec Int32
  | 0, _ => ok 0
  | count + 1, i => do
    let a := to_lower (← self.get i)
    let b := to_lower (← obj.get i)
    let cmp := Int32.ofNat a.toNat - Int32.ofNat b.toNat
    if cmp ≠ 0 then ok cmp
    else self.compare_from obj count (i + 1)

def compare_ignore_case (self obj : ConstStringRef) : Exec Int32 :=
  let cmp := (self.m_length - obj.m_length).toInt32
  if cmp ≠ 0 then ok cmp
  else if self.m_length = 0 then ok 0
  else self.compare_from obj self.m_length.toNat 0

/-- The string refers to `bytes`, which can be read. -/
structure Refers (str : ConstStringRef) (bytes : List UInt8) : Prop where
  length : str.m_length.toNat = bytes.length
  readable : bytes <+: str.m_data

/-- The characters a string refers to. -/
def chars (self : ConstStringRef) : List UInt8 := self.m_data.take self.m_length.toNat

/-- A part of a string: no characters, or some of those that the string refers to. -/
def IsSlice (part str : ConstStringRef) : Prop :=
  part.m_length = 0 ∨
    ∃ index, part = str.sub_string index part.m_length ∧ index.toNat + part.m_length.toNat ≤ str.m_length.toNat

variable {str : ConstStringRef} {bytes : List UInt8}

theorem Refers.chars_eq (h : str.Refers bytes) : str.chars = bytes := by
  rw [chars, h.length]
  exact (List.prefix_iff_eq_take.mp h.readable).symm

theorem refers_of_c_str {c_str : List UInt8} (hlength : c_str.length < 2 ^ 32) :
    (of_c_str c_str).Refers c_str :=
  ⟨Nat.mod_eq_of_lt hlength, List.prefix_rfl⟩

theorem Refers.length_lt (h : str.Refers bytes) : bytes.length < 2 ^ 32 := by
  rw [← h.length]
  exact str.m_length.toNat_lt

theorem Refers.length_ne_zero (h : str.Refers bytes) (hne : bytes ≠ []) : str.m_length ≠ 0 := by
  intro hzero
  have hlength := h.length
  rw [hzero] at hlength
  exact hne (List.eq_nil_of_length_eq_zero hlength.symm)

theorem Refers.get_of_drop (h : str.Refers bytes) {index : UInt32} {ch : UInt8} {rest : List UInt8}
    (hdrop : bytes.drop index.toNat = ch :: rest) : str.get index = ok ch := by
  obtain ⟨more, hmore⟩ := h.readable
  have hget : bytes[index.toNat]? = some ch := by
    rw [← List.head?_drop, hdrop, List.head?_cons]
  have hmem : str.m_data[index.toNat]? = some ch := by
    rw [← hmore, List.getElem?_append_left ?_, hget]
    exact (List.getElem?_eq_some_iff.mp hget).1
  rw [get, hmem]

theorem drop_add_one {index : UInt32} {ch : UInt8} {rest : List UInt8} (hlength : bytes.length < 2 ^ 32)
    (hdrop : bytes.drop index.toNat = ch :: rest) :
    (index + 1).toNat = index.toNat + 1 ∧ bytes.drop (index + 1).toNat = rest := by
  have hcount := congrArg List.length hdrop
  rw [List.length_drop, List.length_cons] at hcount
  have hnext : (index + 1).toNat = index.toNat + 1 := by
    rw [UInt32.toNat_add]
    exact Nat.mod_eq_of_lt (by change index.toNat + 1 < 2 ^ 32; omega)
  refine ⟨hnext, ?_⟩
  rw [hnext, ← List.drop_drop, hdrop, List.drop_one, List.tail_cons]

theorem Refers.sub_string (h : str.Refers bytes) (index length : UInt32)
    (hle : index.toNat + length.toNat ≤ bytes.length) :
    (str.sub_string index length).Refers ((bytes.drop index.toNat).take length.toNat) := by
  refine ⟨?_, ?_⟩
  · rw [List.length_take, List.length_drop, Nat.min_eq_left (by omega)]
    rfl
  · obtain ⟨more, hmore⟩ := h.readable
    refine (List.take_prefix _ _).trans ⟨more, ?_⟩
    rw [ConstStringRef.sub_string, ← hmore, List.drop_append_of_le_length (by omega)]

theorem Refers.isSlice_sub_string (h : str.Refers bytes) {index length : UInt32} {part : List UInt8}
    (hpart : (str.sub_string index length).Refers part) (hle : index.toNat + part.length ≤ bytes.length) :
    (str.sub_string index length).IsSlice str := by
  refine .inr ⟨index, rfl, ?_⟩
  rw [hpart.length, h.length]
  exact hle

theorem Refers.sub_string_from (h : str.Refers bytes) (index : UInt32)
    (hle : index.toNat ≤ bytes.length) : (str.sub_string_from index).Refers (bytes.drop index.toNat) := by
  have hlength := h.length
  have hsub : (str.m_length - index).toNat = bytes.length - index.toNat := by
    rw [UInt32.toNat_sub_of_le _ _ (UInt32.le_iff_toNat_le.mpr (by omega)), h.length]
  have hrefers := h.sub_string index (str.m_length - index) (by omega)
  rwa [hsub, ← List.length_drop, List.take_length] at hrefers

theorem toInt32_eq_ofNat (value : UInt32) : value.toInt32 = Int32.ofNat value.toNat :=
  congrArg UInt32.toInt32 (UInt32.ofNat_toNat (x := value)).symm

theorem Refers.index_of_from (h : str.Refers bytes) (ch : UInt8) {rest : List UInt8} {p : UInt32}
    (hdrop : bytes.drop p.toNat = rest) :
    str.index_of_from ch rest.length p =
      ok (if ch ∈ rest then Int32.ofNat (p.toNat + (rest.takeWhile (· ≠ ch)).length) else -1) := by
  induction rest generalizing p with
  | nil => simp [ConstStringRef.index_of_from]
  | cons first rest ih =>
    obtain ⟨hnext, hrest⟩ := drop_add_one h.length_lt hdrop
    rw [List.length_cons, ConstStringRef.index_of_from, h.get_of_drop hdrop]
    by_cases hfirst : first = ch
    · subst hfirst
      simp [toInt32_eq_ofNat p]
    · have hmem : ch ∈ first :: rest ↔ ch ∈ rest := by
        rw [List.mem_cons, or_iff_right (Ne.symm hfirst)]
      have htake : p.toNat + ((first :: rest).takeWhile (· ≠ ch)).length =
          (p + 1).toNat + (rest.takeWhile (· ≠ ch)).length := by
        rw [List.takeWhile_cons_of_pos (by simpa using hfirst), List.length_cons, hnext]
        omega
      simp only [bind_ok, if_neg hfirst, ih hrest, hmem, htake]

/-- Where a character first stands, from a position on. -/
theorem Refers.index_of (h : str.Refers bytes) (ch : UInt8) (start_index : UInt32) :
    str.index_of ch start_index = ok (if ch ∈ bytes.drop start_index.toNat then
      Int32.ofNat (start_index.toNat + ((bytes.drop start_index.toNat).takeWhile (· ≠ ch)).length)
    else -1) := by
  rw [ConstStringRef.index_of, h.length, ← List.length_drop]
  exact h.index_of_from ch rfl

/-- A byte string without the spaces at its two ends. -/
def trimmed (bytes : List UInt8) : List UInt8 := (bytes.dropWhile (· = 32)).rdropWhile (· = 32)

@[simp] theorem trimmed_cons_blank (bytes : List UInt8) : trimmed (32 :: bytes) = trimmed bytes := by
  rw [trimmed, List.dropWhile_cons_of_pos rfl, trimmed]

@[simp] theorem trimmed_concat_blank (bytes : List UInt8) : trimmed (bytes ++ [32]) = trimmed bytes := by
  rw [trimmed, List.dropWhile_append]
  cases hbody : bytes.dropWhile (· = 32) with
  | nil => simp [trimmed, hbody]
  | cons ch rest =>
    rw [List.isEmpty_cons, if_neg (by decide), List.rdropWhile_concat_pos _ _ _ rfl, trimmed, hbody]

/-- Blanks around a text do not matter. -/
theorem trimmed_padded (front back : Nat) (bytes : List UInt8) :
    trimmed (List.replicate front 32 ++ bytes ++ List.replicate back 32) = trimmed bytes := by
  induction front with
  | zero =>
    rw [List.replicate_zero, List.nil_append]
    induction back with
    | zero => rw [List.replicate_zero, List.append_nil]
    | succ back ih => rw [List.replicate_succ', ← List.append_assoc, trimmed_concat_blank, ih]
  | succ front ih => rw [List.replicate_succ, List.cons_append, List.cons_append, trimmed_cons_blank, ih]

/-- A text is its trimmed form with blanks around it. -/
theorem exists_padded_trimmed (bytes : List UInt8) :
    ∃ front back, bytes = List.replicate front 32 ++ trimmed bytes ++ List.replicate back 32 := by
  have hblanks : ∀ blanks : List UInt8, (∀ ch ∈ blanks, ch = 32) → List.replicate blanks.length 32 = blanks :=
    fun blanks hall => (List.eq_replicate_iff.mpr ⟨rfl, hall⟩).symm
  refine ⟨(bytes.takeWhile (· = 32)).length, ((bytes.dropWhile (· = 32)).rtakeWhile (· = 32)).length, ?_⟩
  rw [hblanks _ fun ch hch => by simpa using List.mem_takeWhile_imp hch,
    hblanks _ fun ch hch => by simpa using List.mem_rtakeWhile_imp hch, trimmed, List.append_assoc,
    List.rdropWhile_append_rtakeWhile, List.takeWhile_append_dropWhile]

theorem trimmed_getLast (bytes : List UInt8) : (trimmed bytes).getLast? ≠ some 32 := by
  intro hlast
  obtain ⟨hne, hlast⟩ := List.mem_getLast?_eq_getLast hlast
  have hnot : ¬ decide ((trimmed bytes).getLast hne = 32) = true := List.rdropWhile_last_not _ _ hne
  rw [← hlast] at hnot
  exact hnot rfl

theorem trimmed_head (bytes : List UInt8) : (trimmed bytes).head? ≠ some 32 := by
  intro hhead
  have hprefix : trimmed bytes <+: bytes.dropWhile (· = 32) := List.rdropWhile_prefix _ _
  have hbody : (bytes.dropWhile (· = 32)).head? = some 32 := by
    obtain ⟨rest, hrest⟩ := hprefix
    rw [← hrest, List.head?_append, hhead]
    rfl
  have hnot := List.head?_dropWhile_not (· = 32) bytes
  rw [hbody] at hnot
  exact absurd hnot (by decide)

/-- A text without blanks at its ends. -/
theorem trimmed_of_notMem {bytes : List UInt8} (hblank : 32 ∉ bytes) : trimmed bytes = bytes := by
  obtain ⟨front, back, hbytes⟩ := exists_padded_trimmed bytes
  have hfront : front = 0 := by
    by_contra hne
    exact hblank (by rw [hbytes]; simp [hne])
  have hback : back = 0 := by
    by_contra hne
    exact hblank (by rw [hbytes]; simp [hne])
  rw [hfront, hback] at hbytes
  simpa using hbytes.symm

theorem Refers.trim_head (h : str.Refers bytes) {rest : List UInt8} {p : UInt32}
    (hdrop : bytes.drop p.toNat = rest) :
    ∃ head, str.trim_head rest.length p = ok head ∧
      head.toNat = p.toNat + (rest.takeWhile (· = 32)).length := by
  induction rest generalizing p with
  | nil => exact ⟨p, rfl, rfl⟩
  | cons first rest ih =>
    obtain ⟨hnext, hrest⟩ := drop_add_one h.length_lt hdrop
    rw [List.length_cons, ConstStringRef.trim_head, h.get_of_drop hdrop]
    by_cases hfirst : first = 32
    · obtain ⟨head, hhead, hcount⟩ := ih hrest
      refine ⟨head, by simpa [hfirst] using hhead, ?_⟩
      rw [List.takeWhile_cons_of_pos (by simpa using hfirst), List.length_cons, hcount, hnext]
      omega
    · refine ⟨p, by simp [hfirst], ?_⟩
      rw [List.takeWhile_cons_of_neg (by simpa using hfirst)]
      rfl

theorem Refers.trim_end (h : str.Refers bytes) {count : Nat} (hcount : count ≤ bytes.length) :
    ∃ last, str.trim_end count = ok last ∧
      last.toNat = ((bytes.take count).rdropWhile (· = 32)).length := by
  induction count with
  | zero => exact ⟨0, rfl, by simp⟩
  | succ count ih =>
    have hlength := h.length_lt
    have hindex : count.toUInt32.toNat = count := Nat.mod_eq_of_lt (by omega)
    have hdrop : bytes.drop count.toUInt32.toNat = bytes[count] :: bytes.drop (count + 1) := by
      rw [hindex, List.drop_eq_getElem_cons hcount]
    rw [ConstStringRef.trim_end, h.get_of_drop hdrop, List.take_succ_eq_append_getElem hcount]
    by_cases hlast : bytes[count] = 32
    · obtain ⟨last, hrest, hnext⟩ := ih (by omega)
      refine ⟨last, by simpa [hlast] using hrest, ?_⟩
      rw [hnext, List.rdropWhile_concat_pos _ _ _ (by simpa using hlast)]
    · refine ⟨(count + 1).toUInt32, by simp [hlast], ?_⟩
      rw [List.rdropWhile_concat_neg _ _ _ (by simpa using hlast), List.length_append, List.length_take,
        Nat.min_eq_left (by omega)]
      exact Nat.mod_eq_of_lt (by omega)

theorem drop_length_takeWhile (p : UInt8 → Bool) :
    bytes.drop (bytes.takeWhile p).length = bytes.dropWhile p := by
  have hdrop : (bytes.takeWhile p ++ bytes.dropWhile p).drop (bytes.takeWhile p).length =
      bytes.dropWhile p := List.drop_left
  rwa [List.takeWhile_append_dropWhile] at hdrop

/-- Spaces in front of a string that is not all spaces do not matter to those
behind it. -/
theorem rdropWhile_eq_append (hbody : bytes.dropWhile (· = 32) ≠ []) :
    bytes.rdropWhile (· = 32) = bytes.takeWhile (· = 32) ++ trimmed bytes := by
  have hhead : ∃ ch ∈ bytes.dropWhile (· = 32), ¬ (decide (ch = 32) = true) :=
    ⟨_, List.head_mem hbody, by simpa using List.head_dropWhile_not _ hbody⟩
  have hkept : ((bytes.dropWhile (· = 32)).reverse.dropWhile (· = 32)).isEmpty = false := by
    rw [List.isEmpty_eq_false_iff]
    intro hnil
    obtain ⟨ch, hmem, hch⟩ := hhead
    exact hch (List.dropWhile_eq_nil_iff.mp hnil ch (List.mem_reverse.mpr hmem))
  have hsplit := List.takeWhile_append_dropWhile (p := (· = 32)) (l := bytes)
  calc bytes.rdropWhile (· = 32)
      = ((bytes.takeWhile (· = 32) ++ bytes.dropWhile (· = 32)).reverse.dropWhile (· = 32)).reverse := by
        rw [hsplit, List.rdropWhile]
    _ = bytes.takeWhile (· = 32) ++ trimmed bytes := by
        rw [List.reverse_append, List.dropWhile_append, hkept]
        simp [trimmed, List.rdropWhile]

theorem Refers.trim (h : str.Refers bytes) :
    ∃ result, str.trim = ok result ∧ result.Refers (trimmed bytes) := by
  have hlength := h.length
  by_cases hempty : str.m_length = 0
  · refine ⟨str, by rw [ConstStringRef.trim, if_pos hempty], ?_⟩
    obtain rfl : bytes = [] := List.eq_nil_of_length_eq_zero (by rw [← hlength, hempty]; rfl)
    exact h
  · have hstart : bytes.drop (0 : UInt32).toNat = bytes := rfl
    obtain ⟨head, hhead, hheadEq⟩ := h.trim_head hstart
    have hsplit := congrArg List.length (List.takeWhile_append_dropWhile (p := (· = 32)) (l := bytes))
    rw [List.length_append] at hsplit
    change head.toNat = 0 + _ at hheadEq
    by_cases hall : head = str.m_length
    · refine ⟨{}, ?_, ?_⟩
      · simp [ConstStringRef.trim, hempty, hlength, hhead, hall]
      · have hnil : bytes.dropWhile (· = 32) = [] := by
          apply List.eq_nil_of_length_eq_zero
          rw [hall] at hheadEq
          omega
        rw [trimmed, hnil, List.rdropWhile_nil]
        exact ⟨rfl, List.nil_prefix⟩
    · obtain ⟨last, hlast, hlastEq⟩ := h.trim_end (Nat.le_refl bytes.length)
      rw [List.take_length] at hlastEq
      have hbody : bytes.dropWhile (· = 32) ≠ [] := by
        intro hnil
        rw [hnil, List.length_nil] at hsplit
        exact hall (UInt32.toNat_inj.mp (by omega))
      rw [rdropWhile_eq_append hbody, List.length_append] at hlastEq
      have hsub : (last - head).toNat = (trimmed bytes).length := by
        rw [UInt32.toNat_sub_of_le _ _ (UInt32.le_iff_toNat_le.mpr (by omega))]
        omega
      have hprefix : trimmed bytes <+: bytes.dropWhile (· = 32) := List.rdropWhile_prefix _ _
      have hrefers := h.sub_string head (last - head) (by have := hprefix.length_le; omega)
      refine ⟨str.sub_string head (last - head), ?_, ?_⟩
      · simp [ConstStringRef.trim, hempty, hlength, hhead, hall, hlast]
      · have hdrop : bytes.drop head.toNat = bytes.dropWhile (· = 32) := by
          rw [hheadEq, Nat.zero_add, drop_length_takeWhile]
        rwa [hdrop, hsub, ← List.prefix_iff_eq_take.mp hprefix] at hrefers

theorem sub_ofNat_eq_zero {a b : UInt8} (h : Int32.ofNat a.toNat - Int32.ofNat b.toNat = 0) : a = b := by
  have ha := a.toNat_lt
  have hb := b.toNat_lt
  rw [Int32.sub_eq_iff_eq_add, Int32.zero_add, ← Int32.toInt_inj, Int32.toInt_ofNat_of_lt (by omega),
    Int32.toInt_ofNat_of_lt (by omega)] at h
  exact UInt8.toNat_inj.mp (by omega)

/-- What a comparison byte by byte gives for strings of one length: the difference of the
first two bytes that differ. -/
def byte_difference : List UInt8 → List UInt8 → Int32
  | first :: rest, second :: others =>
    let cmp := Int32.ofNat first.toNat - Int32.ofNat second.toNat
    if cmp ≠ 0 then cmp else byte_difference rest others
  | _, _ => 0

theorem byte_difference_cons_self (first : UInt8) (rest others : List UInt8) :
    byte_difference (first :: rest) (first :: others) = byte_difference rest others := by
  rw [byte_difference, Int32.sub_self]
  exact if_neg (not_not.mpr rfl)

theorem byte_difference_cons_of_ne {first second : UInt8} (hne : first ≠ second) (rest others : List UInt8) :
    byte_difference (first :: rest) (second :: others) = Int32.ofNat first.toNat - Int32.ofNat second.toNat :=
  if_pos fun hzero => hne (sub_ofNat_eq_zero hzero)

theorem byte_difference_eq_zero_iff {left right : List UInt8} (hlength : left.length = right.length) :
    byte_difference left right = 0 ↔ left = right := by
  induction left generalizing right with
  | nil =>
    obtain rfl : right = [] := List.eq_nil_of_length_eq_zero hlength.symm
    exact iff_of_true rfl rfl
  | cons first left ih =>
    cases right with
    | nil => cases hlength
    | cons second right =>
      by_cases hfirst : first = second
      · subst hfirst
        rw [byte_difference_cons_self, ih (by simpa using hlength), List.cons_inj_right]
      · rw [byte_difference_cons_of_ne hfirst]
        refine iff_of_false (fun hzero => hfirst (sub_ofNat_eq_zero hzero)) fun hequal => hfirst ?_
        exact (List.cons.inj hequal).1

theorem Refers.compare_from (h : str.Refers bytes) {obj : ConstStringRef} {others : List UInt8}
    (hobj : obj.Refers others) {rest otherRest : List UInt8} {i : UInt32}
    (hdrop : bytes.drop i.toNat = rest) (hother : others.drop i.toNat = otherRest)
    (hlength : rest.length = otherRest.length) :
    str.compare_from obj rest.length i = ok (byte_difference (rest.map to_lower) (otherRest.map to_lower)) := by
  induction rest generalizing i otherRest with
  | nil =>
    obtain rfl : otherRest = [] := List.eq_nil_of_length_eq_zero hlength.symm
    rfl
  | cons first rest ih =>
    cases otherRest with
    | nil => cases hlength
    | cons second otherRest =>
      obtain ⟨_, hrest⟩ := drop_add_one h.length_lt hdrop
      obtain ⟨_, hotherRest⟩ := drop_add_one hobj.length_lt hother
      have hnext := ih hrest hotherRest (by simpa using hlength)
      rw [List.length_cons, ConstStringRef.compare_from, h.get_of_drop hdrop, hobj.get_of_drop hother]
      simp only [bind_ok, List.map_cons, byte_difference, hnext]
      split
      · rfl
      · rfl

/-- Case-insensitive comparison finds exactly the strings that are the same in
lower case. -/
theorem Refers.compare_ignore_case (h : str.Refers bytes) {obj : ConstStringRef} {others : List UInt8}
    (hobj : obj.Refers others) :
    ∃ cmp, str.compare_ignore_case obj = ok cmp ∧ (cmp = 0 ↔ bytes.map to_lower = others.map to_lower) := by
  have hlength := h.length
  have hother := hobj.length
  by_cases hsame : str.m_length = obj.m_length
  · have hcmp : (str.m_length - obj.m_length).toInt32 = 0 := by
      rw [hsame, UInt32.sub_self]
      rfl
    have hequal : bytes.length = others.length := by rw [← hlength, ← hother, hsame]
    by_cases hempty : str.m_length = 0
    · refine ⟨0, ?_, ?_⟩
      · simp only [ConstStringRef.compare_ignore_case, hcmp, ne_eq, not_true_eq_false, if_false,
          if_pos hempty]
      · rw [hempty] at hlength
        have hbytes : bytes = [] := List.eq_nil_of_length_eq_zero hlength.symm
        have hothers : others = [] := List.eq_nil_of_length_eq_zero (by rw [← hequal, ← hlength]; rfl)
        simp [hbytes, hothers]
    · have hstart : bytes.drop (0 : UInt32).toNat = bytes := rfl
      have hotherStart : others.drop (0 : UInt32).toNat = others := rfl
      have hresult := h.compare_from hobj hstart hotherStart hequal
      refine ⟨_, ?_, byte_difference_eq_zero_iff (by rw [List.length_map, List.length_map, hequal])⟩
      simp only [ConstStringRef.compare_ignore_case, hcmp, ne_eq, not_true_eq_false, if_false, hempty,
        hlength, hresult]
  · have hcmp : (str.m_length - obj.m_length).toInt32 ≠ 0 := by
      intro hzero
      have hsub : str.m_length - obj.m_length = 0 := congrArg Int32.toUInt32 hzero
      exact hsame (by rw [← UInt32.sub_add_cancel str.m_length obj.m_length, hsub, UInt32.zero_add])
    refine ⟨(str.m_length - obj.m_length).toInt32, ?_, ?_⟩
    · simp only [ConstStringRef.compare_ignore_case, ne_eq, hcmp, not_false_eq_true, if_true]
    · refine iff_of_false hcmp fun hmap => hsame ?_
      have hequal := congrArg List.length hmap
      rw [List.length_map, List.length_map] at hequal
      exact UInt32.toNat_inj.mp (by omega)

end ConstStringRef

end kfw
