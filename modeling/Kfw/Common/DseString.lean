import Kfw.Common.Heap
import Kfw.Common.StringRef

open exec Result

namespace kfw

/-- `dse_string_create`: the characters of the new string, or null. A string is
its characters from then on; the reference count in front of them only decides
when they are freed. -/
def dse_string_create (allocator : Allocator) (heap : Heap) (s : ConstStringRef) :
    Exec (Option (List UInt8) × Heap) :=
  match heap.new_chars allocator (s.m_length + 8) with
  | (none, heap) => ok (none, heap)
  | (some chars, heap) =>
    if chars.length < s.m_length.toNat + 8 ∨ s.m_data.length < s.m_length.toNat then fail .invalid_access
    else ok (some (s.m_data.take s.m_length.toNat), heap)

/-- The conversion of a `ConstStringRef` to a `String`. -/
def string_of_ref (allocator : Allocator) (heap : Heap) (s : ConstStringRef) : Exec (List UInt8 × Heap) := do
  match ← dse_string_create allocator heap s with
  | (none, _) => fail (.system_error kEOutOfMemory)
  | (some chars, heap) => ok (chars, heap)

/-- The assignment of a C string to a `String`, which stays null when there is
no memory; a null string has length zero. -/
def string_of_c_str (allocator : Allocator) (heap : Heap) (c_str : List UInt8) : Exec (List UInt8 × Heap) := do
  let (chars, heap) ← dse_string_create allocator heap (.of_c_str c_str)
  ok (chars.getD [], heap)

variable {allocator : Allocator} {str : ConstStringRef} {bytes : List UInt8}

theorem dse_string_create_granted (hgrants : allocator.Grants) (heap : Heap) (h : str.Refers bytes)
    (hlength : bytes.length + 8 < 2 ^ 32) :
    dse_string_create allocator heap str = ok (some bytes, heap.asked) := by
  have hstr := h.length
  have hread := h.readable.length_le
  have hsize : (str.m_length + 8).toNat = str.m_length.toNat + 8 := by
    rw [UInt32.toNat_add]
    exact Nat.mod_eq_of_lt (by rw [hstr]; exact hlength)
  obtain ⟨chars, hnew, hchars⟩ := Heap.new_chars_granted hgrants heap (str.m_length + 8)
  have hroom : ¬ (chars.length < str.m_length.toNat + 8 ∨ str.m_data.length < str.m_length.toNat) := by
    omega
  rw [dse_string_create, hnew]
  simp only [if_neg hroom]
  rw [hstr, ← List.prefix_iff_eq_take.mp h.readable]

theorem string_of_ref_granted (hgrants : allocator.Grants) (heap : Heap) (h : str.Refers bytes)
    (hlength : bytes.length + 8 < 2 ^ 32) :
    string_of_ref allocator heap str = ok (bytes, heap.asked) := by
  rw [string_of_ref, dse_string_create_granted hgrants heap h hlength]
  rfl

theorem string_of_c_str_granted (hgrants : allocator.Grants) (heap : Heap) {c_str : List UInt8}
    (hlength : c_str.length + 8 < 2 ^ 32) :
    string_of_c_str allocator heap c_str = ok (c_str, heap.asked) := by
  have hrefers : (ConstStringRef.of_c_str c_str).Refers c_str :=
    ConstStringRef.refers_of_c_str (by omega)
  rw [string_of_c_str, dse_string_create_granted hgrants heap hrefers hlength]
  rfl

/-- Making a string leaves the blocks of the heap as they are. -/
theorem dse_string_create_live {heap nextHeap : Heap} {chars : Option (List UInt8)}
    (hstring : dse_string_create allocator heap str = ok (chars, nextHeap)) : nextHeap.live = heap.live := by
  have hlive := Heap.new_chars_live allocator heap (str.m_length + 8)
  rw [dse_string_create] at hstring
  split at hstring
  · next hnew =>
    rw [hnew] at hlive
    cases hstring
    exact hlive
  · next hnew =>
    rw [hnew] at hlive
    split at hstring
    · cases hstring
    · cases hstring
      exact hlive

theorem string_of_ref_live {heap nextHeap : Heap} {chars : List UInt8}
    (hstring : string_of_ref allocator heap str = ok (chars, nextHeap)) : nextHeap.live = heap.live := by
  obtain ⟨⟨created, createdHeap⟩, hcreate, hresult⟩ := bind_eq_ok_iff.mp hstring
  cases created with
  | none => cases hresult
  | some chars =>
    cases hresult
    exact dse_string_create_live hcreate

theorem string_of_c_str_live {heap nextHeap : Heap} {c_str chars : List UInt8}
    (hstring : string_of_c_str allocator heap c_str = ok (chars, nextHeap)) : nextHeap.live = heap.live := by
  obtain ⟨⟨created, createdHeap⟩, hcreate, hresult⟩ := bind_eq_ok_iff.mp hstring
  cases hresult
  exact dse_string_create_live hcreate

end kfw
