import Kfw.Common.StringRef

open exec Result

namespace kfw.ConstStringRef

/-- The inner loop of `index_of` of a string with `count` positions to go: whether it
comes to its end, or jumps out at a character that differs. `data` points to where the
pattern is tried. -/
def match_from (data obj : ConstStringRef) : Nat → UInt32 → Exec Bool
  | 0, _ => ok true
  | count + 1, j => do
    if (← data.get j) ≠ (← obj.get j) then ok false
    else data.match_from obj count (j + 1)

/-- The outer loop, with `count` positions to go. -/
def index_of_string_from (self obj : ConstStringRef) : Nat → UInt32 → Exec Int32
  | 0, _ => ok (-1)
  | count + 1, i => do
    if (← self.get i) = (← obj.get 0) then
      if ← (self.sub_string_from i).match_from obj obj.m_length.toNat 0 then ok i.toInt32
      else self.index_of_string_from obj count (i + 1)
    else self.index_of_string_from obj count (i + 1)

/-- `index_of` of a string. -/
def index_of_string (self obj : ConstStringRef) (start_index : UInt32) : Exec Int32 :=
  if obj.m_length = 0 then ok 0
  else if self.m_length = 0 then ok (-1)
  else if self.m_length < obj.m_length then ok (-1)
  else
    let stop := self.m_length - (obj.m_length - 1)
    self.index_of_string_from obj (stop.toNat - start_index.toNat) start_index

/-- The positions from `start` on at which a pattern stands in a text. -/
def occurrences (text pattern : List UInt8) (start : Nat) : Set Nat :=
  {pos | start ≤ pos ∧ pattern <+: text.drop pos}

/-- The answer of a search from `start` on: the first occurrence, or -1 without one. -/
def Finds (text pattern : List UInt8) (start : Nat) (r : Int32) : Prop :=
  (occurrences text pattern start = ∅ ∧ r = -1) ∨
    ∃ pos, IsLeast (occurrences text pattern start) pos ∧ r = Int32.ofNat pos

variable {str obj : ConstStringRef} {text pattern : List UInt8} {start : Nat} {r : Int32}

theorem Finds.unique {r' : Int32} (h : Finds text pattern start r) (h' : Finds text pattern start r') : r = r' := by
  rcases h with ⟨hnone, rfl⟩ | ⟨pos, hleast, rfl⟩
  · rcases h' with ⟨_, rfl⟩ | ⟨pos, hleast, _⟩
    · rfl
    · exact absurd hnone hleast.nonempty.ne_empty
  · rcases h' with ⟨hnone, _⟩ | ⟨pos', hleast', rfl⟩
    · exact absurd hnone hleast.nonempty.ne_empty
    · rw [hleast.unique hleast']

theorem Finds.here (hmatch : pattern <+: text.drop start) : Finds text pattern start (Int32.ofNat start) :=
  .inr ⟨start, ⟨⟨Nat.le_refl _, hmatch⟩, fun _ hpos => hpos.1⟩, rfl⟩

/-- A position without an occurrence is skipped. -/
theorem occurrences_skip (hmatch : ¬ pattern <+: text.drop start) :
    occurrences text pattern start = occurrences text pattern (start + 1) := by
  ext pos
  constructor
  · rintro ⟨hle, hpos⟩
    refine ⟨Nat.lt_of_le_of_ne hle ?_, hpos⟩
    rintro rfl
    exact hmatch hpos
  · rintro ⟨hlt, hpos⟩
    exact ⟨Nat.le_of_succ_le hlt, hpos⟩

theorem Finds.skip (hmatch : ¬ pattern <+: text.drop start) (h : Finds text pattern (start + 1) r) :
    Finds text pattern start r := by
  rwa [Finds, occurrences_skip hmatch]

/-- An occurrence of a pattern that is not empty ends inside of the text. -/
theorem occurrence_le {pos : Nat} (hne : pattern ≠ []) (hpos : pos ∈ occurrences text pattern start) :
    pos + pattern.length ≤ text.length := by
  have hlength := hpos.2.length_le
  have hpositive := List.length_pos_iff.mpr hne
  rw [List.length_drop] at hlength
  omega

/-- Where the pattern does not fit any more there is none. -/
theorem Finds.past (hne : pattern ≠ []) (hpast : text.length < start + pattern.length) :
    Finds text pattern start (-1) := by
  refine .inl ⟨?_, rfl⟩
  rw [Set.eq_empty_iff_forall_notMem]
  intro pos hpos
  have hstart := hpos.1
  have hend := occurrence_le hne hpos
  omega

/-- The inner loop compares what is left of the pattern with the text in front of it. -/
theorem Refers.match_from (h : str.Refers text) (hobj : obj.Refers pattern) {rest others : List UInt8} {j : UInt32}
    (hdrop : text.drop j.toNat = rest) (hother : pattern.drop j.toNat = others)
    (hlength : others.length ≤ rest.length) :
    str.match_from obj others.length j = ok (decide (others <+: rest)) := by
  induction others generalizing j rest with
  | nil => simp [ConstStringRef.match_from]
  | cons second others ih =>
    cases rest with
    | nil => cases hlength
    | cons first rest =>
      obtain ⟨_, hrest⟩ := drop_add_one h.length_lt hdrop
      obtain ⟨_, hotherRest⟩ := drop_add_one hobj.length_lt hother
      have hnext := ih hrest hotherRest (by simpa using hlength)
      rw [List.length_cons, ConstStringRef.match_from, h.get_of_drop hdrop, hobj.get_of_drop hother]
      by_cases hfirst : first = second
      · simp [hfirst, hnext]
      · simp [hfirst, Ne.symm hfirst]

/-- The outer loop goes on to the last position at which the pattern fits; the induction is
on the positions still ahead. -/
theorem Refers.index_of_string_from (h : str.Refers text) (hobj : obj.Refers pattern) (hne : pattern ≠ [])
    {count : Nat} {i : UInt32} (hcount : count = text.length + 1 - pattern.length - i.toNat) :
    ∃ r, str.index_of_string_from obj count i = ok r ∧ Finds text pattern i.toNat r := by
  have hpositive := List.length_pos_iff.mpr hne
  induction count generalizing i with
  | zero => exact ⟨-1, rfl, .past hne (by omega)⟩
  | succ count ih =>
    have hi : i.toNat < text.length := by omega
    obtain ⟨first, rest, hdrop⟩ := List.exists_cons_of_length_pos (l := text.drop i.toNat)
      (by rw [List.length_drop]; omega)
    obtain ⟨second, others, hpattern⟩ := List.exists_cons_of_ne_nil hne
    obtain ⟨hnext, _⟩ := drop_add_one h.length_lt hdrop
    obtain ⟨r, hrest, hfinds⟩ := ih (i := i + 1) (by omega)
    rw [hnext] at hfinds
    have hhead : obj.get 0 = ok second := hobj.get_of_drop hpattern
    rw [ConstStringRef.index_of_string_from, h.get_of_drop hdrop, hhead, bind_ok, bind_ok]
    by_cases hfirst : first = second
    · have hdata := h.sub_string_from i hi.le
      have hfits : pattern.length ≤ (text.drop i.toNat).length := by
        rw [List.length_drop]
        omega
      have hmatch : (str.sub_string_from i).match_from obj pattern.length 0 =
          ok (decide (pattern <+: text.drop i.toNat)) := hdata.match_from hobj rfl rfl hfits
      rw [if_pos hfirst, hobj.length, hmatch, bind_ok]
      by_cases hoccurs : pattern <+: text.drop i.toNat
      · refine ⟨Int32.ofNat i.toNat, ?_, .here hoccurs⟩
        rw [if_pos (decide_eq_true hoccurs), toInt32_eq_ofNat]
      · refine ⟨r, ?_, hfinds.skip hoccurs⟩
        rw [if_neg (by simpa using hoccurs), hrest]
    · refine ⟨r, by rw [if_neg hfirst, hrest], hfinds.skip fun hoccurs => hfirst ?_⟩
      rw [hpattern, hdrop, List.cons_prefix_cons] at hoccurs
      exact hoccurs.1.symm

theorem Refers.index_of_string (h : str.Refers text) (hobj : obj.Refers pattern) (hne : pattern ≠ [])
    (start_index : UInt32) :
    ∃ r, str.index_of_string obj start_index = ok r ∧ Finds text pattern start_index.toNat r := by
  have hlength := h.length
  have hpattern := hobj.length
  have hpositive := List.length_pos_iff.mpr hne
  rw [ConstStringRef.index_of_string, if_neg (hobj.length_ne_zero hne)]
  by_cases hshort : str.m_length < obj.m_length
  · have hlt := UInt32.lt_iff_toNat_lt.mp hshort
    refine ⟨-1, ?_, .past hne (by omega)⟩
    rw [if_pos hshort, ite_self]
  · have hle : pattern.length ≤ text.length := by
      rw [UInt32.lt_iff_toNat_lt] at hshort
      omega
    have hnonempty : str.m_length ≠ 0 := h.length_ne_zero (List.length_pos_iff.mp (by omega))
    have hone : (1 : UInt32) ≤ obj.m_length := UInt32.le_iff_toNat_le.mpr (by rw [hpattern]; exact hpositive)
    have hlast : (obj.m_length - 1).toNat = pattern.length - 1 := by
      rw [UInt32.toNat_sub_of_le _ _ hone, hpattern]
      rfl
    have hstop : (str.m_length - (obj.m_length - 1)).toNat = text.length + 1 - pattern.length := by
      rw [UInt32.toNat_sub_of_le _ _ (UInt32.le_iff_toNat_le.mpr (by omega))]
      omega
    rw [if_neg hnonempty, if_neg hshort]
    exact h.index_of_string_from hobj hne (by rw [hstop])

theorem exists_finds (text pattern : List UInt8) (start : Nat) : ∃ r, Finds text pattern start r := by
  rcases (occurrences text pattern start).eq_empty_or_nonempty with hnone | hsome
  · exact ⟨-1, .inl ⟨hnone, rfl⟩⟩
  · exact ⟨_, .inr ⟨_, ⟨Nat.sInf_mem hsome, fun _ hpos => Nat.sInf_le hpos⟩, rfl⟩⟩

/-- An occurrence is in front of the end of the text, so its position is not taken for -1. -/
theorem Finds.answer (h : Finds text pattern start r) (hne : pattern ≠ []) (htext : text.length < 2 ^ 32) :
    (r = -1 ↔ occurrences text pattern start = ∅) ∧
      ∀ pos, IsLeast (occurrences text pattern start) pos →
        r.toUInt32.toNat = pos ∧ (text.length < 2 ^ 31 → r.toInt = pos) := by
  rcases h with ⟨hnone, rfl⟩ | ⟨least, hleast, rfl⟩
  · exact ⟨iff_of_true rfl hnone, fun pos hpos => absurd hnone hpos.nonempty.ne_empty⟩
  · have hend := occurrence_le hne hleast.1
    have hpositive := List.length_pos_iff.mpr hne
    have hnat : (Int32.ofNat least).toUInt32.toNat = least := Nat.mod_eq_of_lt (by omega)
    refine ⟨iff_of_false (fun hminus => ?_) hleast.nonempty.ne_empty, fun pos hpos => ?_⟩
    · have hlast : (-1 : Int32).toUInt32.toNat = 2 ^ 32 - 1 := by decide
      rw [← hminus, hnat] at hlast
      omega
    · rw [← hleast.unique hpos]
      exact ⟨hnat, fun hsmall => Int32.toInt_ofNat_of_lt (by omega)⟩

/-- A search for a string that is not empty gives the first position from the start index on
at which it stands in the text, and -1 exactly if there is none. Nothing is read outside of
the two: the memory may end with them, and what follows them does not matter. -/
theorem index_of_string_first (hne : pattern ≠ []) (htext : text.length < 2 ^ 32) (start_index : UInt32) :
    ∃ r, (∀ str obj : ConstStringRef, str.Refers text → obj.Refers pattern →
        str.index_of_string obj start_index = ok r) ∧
      (r = -1 ↔ occurrences text pattern start_index.toNat = ∅) ∧
      ∀ pos, IsLeast (occurrences text pattern start_index.toNat) pos →
        r.toUInt32.toNat = pos ∧ (text.length < 2 ^ 31 → r.toInt = pos) := by
  obtain ⟨r, hr⟩ := exists_finds text pattern start_index.toNat
  refine ⟨r, fun str obj hstr hobj => ?_, hr.answer hne htext⟩
  obtain ⟨r', hsearch, hfinds⟩ := hstr.index_of_string hobj hne start_index
  rw [hsearch, hfinds.unique hr]

/-- A pattern behind a partial match with which it overlaps. -/
theorem index_of_string_first_overlap :
    ∃ r, (∀ str obj : ConstStringRef, str.Refers (ascii "aab") → obj.Refers (ascii "ab") →
        str.index_of_string obj 0 = ok r) ∧
      (r = -1 ↔ occurrences (ascii "aab") (ascii "ab") 0 = ∅) ∧
      ∀ pos, IsLeast (occurrences (ascii "aab") (ascii "ab") 0) pos →
        r.toUInt32.toNat = pos ∧ ((ascii "aab").length < 2 ^ 31 → r.toInt = pos) :=
  index_of_string_first (by decide) (by decide) 0

end kfw.ConstStringRef
