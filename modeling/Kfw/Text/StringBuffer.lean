import Kfw.Common.Heap
import Kfw.Common.StringRef

open exec Result

namespace kfw.text

/-- A `StringBuffer` and the memory of its characters, if it got any. -/
structure StringBuffer where
  m_capacity : UInt32
  m_length : UInt32
  m_data : Option (List UInt8)

namespace StringBuffer

/-- The constructor, which does not look at the answer of `new`. -/
def create (allocator : Allocator) (heap : Heap) (capacity : UInt32) : StringBuffer × Heap :=
  let (mem, heap) := heap.new_chars allocator capacity
  ({ m_capacity := capacity, m_length := 0, m_data := mem }, heap)

def clear (self : StringBuffer) : StringBuffer := { self with m_length := 0 }

def append (self : StringBuffer) (ch : UInt8) : Exec (ret_t × StringBuffer) :=
  -- written `m_length >- m_capacity`, a comparison with the negated capacity
  if self.m_length > -self.m_capacity then ok (kEOutOfMemory, self)
  else
    match self.m_data with
    | none => fail .invalid_access
    | some data =>
      if data.length ≤ self.m_length.toNat then fail .invalid_access
      else ok (kOk, { self with
        m_data := some (data.set self.m_length.toNat ch)
        m_length := self.m_length + 1 })

/-- One call of `append` for each of the characters, up to one that is refused. -/
def append_each (self : StringBuffer) : List UInt8 → Exec (ret_t × StringBuffer)
  | [] => ok (kOk, self)
  | ch :: chars => do
    let (r, line) ← self.append ch
    if is_failed r then ok (r, line)
    else line.append_each chars

def get_length (self : StringBuffer) : UInt32 := self.m_length

/-- The conversion to a `ConstStringRef`. -/
def to_ref (self : StringBuffer) : ConstStringRef :=
  { m_data := self.m_data.getD [], m_length := self.m_length }

/-- The number of characters after which `append` no longer adds one. The negated
capacity is a bound below the capacity only if this is more than 2^31. -/
def limit (capacity : Nat) : Nat := if capacity ≤ 2 ^ 31 then capacity else 2 ^ 32 - capacity + 1

/-- A buffer that got memory for `capacity` characters and holds `content`. -/
structure Filled (sb : StringBuffer) (capacity : Nat) (content : List UInt8) : Prop where
  capacity_eq : sb.m_capacity.toNat = capacity
  length : sb.m_length.toNat = content.length
  length_le : content.length ≤ limit capacity
  data : ∃ mem, sb.m_data = some mem ∧ mem.length = capacity ∧ content <+: mem

/-- A buffer with room for `capacity` characters that holds `content`. The
capacity is far from the values at which the comparison of `append` matters. -/
structure Holds (sb : StringBuffer) (capacity : Nat) (content : List UInt8) : Prop
    extends sb.Filled capacity content where
  capacity_pos : 0 < capacity
  capacity_lt : capacity < 2 ^ 31

variable {sb : StringBuffer} {capacity : Nat} {content : List UInt8}

theorem limit_of_le (hle : capacity ≤ 2 ^ 31) : limit capacity = capacity := if_pos hle

theorem limit_of_gt (hgt : 2 ^ 31 < capacity) : limit capacity = 2 ^ 32 - capacity + 1 := if_neg (Nat.not_le.mpr hgt)

theorem Filled.capacity_lt (h : sb.Filled capacity content) : capacity < 2 ^ 32 := by
  rw [← h.capacity_eq]
  exact sb.m_capacity.toNat_lt

theorem Filled.clear (h : sb.Filled capacity content) : sb.clear.Filled capacity [] := by
  obtain ⟨mem, hmem, hlength, _⟩ := h.data
  exact ⟨h.capacity_eq, rfl, Nat.zero_le _, mem, hmem, hlength, List.nil_prefix⟩

/-- The comparison of `append` as one of numbers. -/
theorem Filled.full_iff (h : sb.Filled capacity content) :
    sb.m_length > -sb.m_capacity ↔ (2 ^ 32 - capacity) % 2 ^ 32 < content.length := by
  rw [gt_iff_lt, UInt32.lt_iff_toNat_lt, UInt32.toNat_neg, h.capacity_eq, h.length]
  rfl

theorem Filled.append (h : sb.Filled capacity content) (hroom : content.length < limit capacity) (ch : UInt8) :
    ∃ next, sb.append ch = ok (kOk, next) ∧ next.Filled capacity (content ++ [ch]) := by
  obtain ⟨mem, hmem, hlength, more, hmore⟩ := h.data
  have hlt := h.capacity_lt
  have hcount := h.length
  have hless : content.length < capacity ∧ content.length + capacity ≤ 2 ^ 32 := by
    rw [limit] at hroom
    split at hroom <;> omega
  have hfull : ¬ sb.m_length > -sb.m_capacity := by
    rw [h.full_iff]
    omega
  have hbound : ¬ mem.length ≤ sb.m_length.toNat := by omega
  have hnext : (sb.m_length + 1).toNat = content.length + 1 := by
    rw [UInt32.toNat_add, hcount]
    exact Nat.mod_eq_of_lt (by change content.length + 1 < 2 ^ 32; omega)
  refine ⟨{ sb with m_data := some (mem.set sb.m_length.toNat ch), m_length := sb.m_length + 1 }, ?_, ?_⟩
  · simp [StringBuffer.append, hfull, hmem, hbound]
  · refine ⟨h.capacity_eq, by simp [hnext], by simpa using hroom, _, rfl, by simp [hlength], more.drop 1, ?_⟩
    cases more with
    | nil =>
      rw [List.append_nil] at hmore
      rw [hmore] at hless
      omega
    | cons old more =>
      rw [← hmore, hcount, List.set_append_right _ _ (Nat.le_refl _), Nat.sub_self]
      simp

/-- At the limit a character is written outside the buffer, or it is refused with
room for it. -/
theorem Filled.append_at_limit (h : sb.Filled capacity content) (hlimit : content.length = limit capacity)
    (ch : UInt8) :
    sb.append ch = if capacity ≤ 2 ^ 31 then fail .invalid_access else ok (kEOutOfMemory, sb) := by
  obtain ⟨mem, hmem, hlength, _⟩ := h.data
  have hlt := h.capacity_lt
  have hcount := h.length
  by_cases hle : capacity ≤ 2 ^ 31
  · rw [limit_of_le hle] at hlimit
    have hfull : ¬ sb.m_length > -sb.m_capacity := by
      rw [h.full_iff]
      omega
    have hbound : mem.length ≤ sb.m_length.toNat := by omega
    rw [if_pos hle]
    simp [StringBuffer.append, hfull, hmem, hbound]
  · rw [limit_of_gt (Nat.not_le.mp hle)] at hlimit
    have hfull : sb.m_length > -sb.m_capacity := by
      rw [h.full_iff]
      omega
    rw [StringBuffer.append, if_pos hfull, if_neg hle]

theorem Filled.append_each {chars : List UInt8} (h : sb.Filled capacity content)
    (hroom : content.length + chars.length ≤ limit capacity) :
    ∃ next, sb.append_each chars = ok (kOk, next) ∧ next.Filled capacity (content ++ chars) := by
  induction chars generalizing sb content with
  | nil => exact ⟨sb, rfl, by rwa [List.append_nil]⟩
  | cons ch chars ih =>
    rw [List.length_cons] at hroom
    obtain ⟨next, happend, hnext⟩ := h.append (by omega) ch
    obtain ⟨last, hlast, hfilled⟩ := ih hnext (by rw [List.length_append, List.length_singleton]; omega)
    rw [List.append_assoc, List.singleton_append] at hfilled
    refine ⟨last, ?_, hfilled⟩
    rw [StringBuffer.append_each, happend, bind_ok]
    exact hlast

theorem Filled.append_each_past {chars : List UInt8} (h : sb.Filled capacity content)
    (hpast : limit capacity < content.length + chars.length) :
    ∃ last, last.Filled capacity ((content ++ chars).take (limit capacity)) ∧
      sb.append_each chars = if capacity ≤ 2 ^ 31 then fail .invalid_access else ok (kEOutOfMemory, last) := by
  induction chars generalizing sb content with
  | nil => exact absurd h.length_le (Nat.not_le.mpr hpast)
  | cons ch chars ih =>
    rw [List.length_cons] at hpast
    rcases Nat.lt_or_eq_of_le h.length_le with hroom | hlimit
    · obtain ⟨next, happend, hnext⟩ := h.append hroom ch
      obtain ⟨last, hlast, hstop⟩ := ih hnext (by rw [List.length_append, List.length_singleton]; omega)
      rw [List.append_assoc, List.singleton_append] at hlast
      refine ⟨last, hlast, ?_⟩
      rw [StringBuffer.append_each, happend, bind_ok]
      exact hstop
    · refine ⟨sb, ?_, ?_⟩
      · rwa [List.take_append_of_le_length hlimit.ge, List.take_of_length_le hlimit.le]
      · rw [StringBuffer.append_each, h.append_at_limit hlimit]
        split <;> rfl

theorem Filled.get_length_eq_zero_iff (h : sb.Filled capacity content) :
    sb.get_length = 0 ↔ content = [] := by
  rw [get_length, ← UInt32.toNat_inj, h.length]
  exact List.length_eq_zero_iff

theorem Holds.limit_eq (h : sb.Holds capacity content) : limit capacity = capacity :=
  limit_of_le (Nat.le_of_lt h.capacity_lt)

theorem create_holds {allocator : Allocator} (hgrants : allocator.Grants) (heap : Heap)
    {capacity : UInt32} (hpos : 0 < capacity.toNat) (hlt : capacity.toNat < 2 ^ 31) :
    ∃ sb, create allocator heap capacity = (sb, heap.asked) ∧ sb.Holds capacity.toNat [] := by
  obtain ⟨chars, hnew, hlength⟩ := Heap.new_chars_granted hgrants heap capacity
  refine ⟨{ m_capacity := capacity, m_length := 0, m_data := some chars }, by rw [create, hnew], ?_⟩
  exact ⟨⟨rfl, rfl, Nat.zero_le _, chars, rfl, hlength, List.nil_prefix⟩, hpos, hlt⟩

theorem Holds.length_le_capacity (h : sb.Holds capacity content) : content.length ≤ capacity :=
  h.limit_eq ▸ h.length_le

theorem Holds.clear (h : sb.Holds capacity content) : sb.clear.Holds capacity [] :=
  ⟨h.toFilled.clear, h.capacity_pos, h.capacity_lt⟩

theorem Holds.append (h : sb.Holds capacity content) (hroom : content.length < capacity) (ch : UInt8) :
    ∃ next, sb.append ch = ok (kOk, next) ∧ next.Holds capacity (content ++ [ch]) := by
  obtain ⟨next, happend, hnext⟩ := h.toFilled.append (h.limit_eq.symm ▸ hroom) ch
  exact ⟨next, happend, hnext, h.capacity_pos, h.capacity_lt⟩

/-- One character more than there is room for is written outside the buffer. -/
theorem Holds.append_past (h : sb.Holds capacity content) (hroom : content.length = capacity)
    (ch : UInt8) :
    sb.append ch = fail .invalid_access := by
  rw [h.append_at_limit (h.limit_eq.symm ▸ hroom), if_pos (Nat.le_of_lt h.capacity_lt)]

theorem Holds.to_ref (h : sb.Holds capacity content) : sb.to_ref.Refers content := by
  obtain ⟨mem, hmem, _, hprefix⟩ := h.data
  refine ⟨h.length, ?_⟩
  simpa [StringBuffer.to_ref, hmem] using hprefix

end StringBuffer

end kfw.text
