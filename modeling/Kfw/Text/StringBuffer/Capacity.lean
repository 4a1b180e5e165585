import Kfw.Lib.Run
import Kfw.Text.StringBuffer

open exec Result

namespace kfw.text.StringBuffer

inductive BufferCall where
  | append (ch : UInt8)
  | clear

/-- A buffer and the characters that were appended since it was cleared. -/
structure Filling where
  sb : StringBuffer
  content : List UInt8 := []

/-- One call. -/
def Filling.call (filling : Filling) : BufferCall → Exec Filling
  | .append ch => do
    let (r, sb) ← filling.sb.append ch
    ok { sb, content := if is_failed r then filling.content else filling.content ++ [ch] }
  | .clear => ok { sb := filling.sb.clear }

/-- The characters that a buffer holds. -/
def chars (sb : StringBuffer) : List UInt8 := (sb.m_data.getD []).take sb.m_length.toNat

/-- The call is refused without any change exactly if the buffer is full, and otherwise
the character is put behind those that were appended before. -/
def Filling.Bounded (filling : Filling) : BufferCall → Prop
  | .append ch =>
    if filling.sb.m_length = filling.sb.m_capacity then filling.sb.append ch = ok (kEOutOfMemory, filling.sb)
    else ∃ next, filling.sb.append ch = ok (kOk, next) ∧ next.m_length ≤ next.m_capacity ∧
      next.chars = filling.content ++ [ch]
  | .clear => filling.sb.clear.chars = []

/-- The buffer got its memory and is filled below the limit when a character is appended. -/
def Filling.HasRoom (filling : Filling) : BufferCall → Prop
  | .append _ => filling.sb.m_data ≠ none ∧ filling.sb.m_length.toNat < limit filling.sb.m_capacity.toNat
  | .clear => True

/-- What holds of a buffer as long as characters are appended to it with room only. -/
def Filling.Sound (filling : Filling) : Prop :=
  if filling.sb.m_data = none then filling.sb.m_length = 0
  else filling.sb.Filled filling.sb.m_capacity.toNat filling.content

variable {sb : StringBuffer} {capacity : Nat} {content : List UInt8}

theorem limit_le (hlt : capacity < 2 ^ 32) : limit capacity ≤ capacity := by
  rw [limit]
  split <;> omega

theorem Filled.chars_eq (h : sb.Filled capacity content) : sb.chars = content := by
  obtain ⟨mem, hmem, _, hprefix⟩ := h.data
  rw [chars, hmem, Option.getD_some, h.length]
  exact (List.prefix_iff_eq_take.mp hprefix).symm

theorem Filled.length_le_capacity (h : sb.Filled capacity content) : sb.m_length ≤ sb.m_capacity := by
  rw [UInt32.le_iff_toNat_le, h.length, h.capacity_eq]
  exact Nat.le_trans h.length_le (limit_le h.capacity_lt)

/-- Without memory the first character is written through a null pointer. -/
theorem append_without_memory (hdata : sb.m_data = none) (hlength : sb.m_length = 0) (ch : UInt8) :
    sb.append ch = fail .invalid_access := by
  have hfull : ¬ sb.m_length > -sb.m_capacity := by
    rw [hlength, gt_iff_lt, UInt32.lt_iff_toNat_lt, UInt32.toNat_zero]
    exact Nat.not_lt_zero _
  simp [append, hfull, hdata]

/-- A call that fails is not bounded. -/
theorem Filling.not_bounded_of_fail {filling : Filling} {ch : UInt8}
    (hfail : filling.sb.append ch = fail .invalid_access) : ¬ filling.Bounded (.append ch) := by
  rw [Filling.Bounded, hfail]
  split
  · exact fun h => by cases h
  · rintro ⟨next, h, -⟩
    cases h

theorem Filling.Sound.bounded_iff {filling : Filling} (h : filling.Sound) (action : BufferCall) :
    filling.Bounded action ↔ filling.HasRoom action := by
  cases action with
  | clear => exact iff_of_true List.take_zero trivial
  | append ch =>
    rw [Filling.Sound] at h
    split at h
    · rename_i hdata
      exact iff_of_false (not_bounded_of_fail (append_without_memory hdata h ch)) fun hroom => hroom.1 hdata
    · rename_i hdata
      rw [Filling.HasRoom, and_iff_right hdata, h.length]
      have hlt := h.capacity_lt
      have hfull : filling.sb.m_length = filling.sb.m_capacity ↔
          filling.content.length = filling.sb.m_capacity.toNat := by
        rw [← UInt32.toNat_inj, h.length]
      rcases Nat.lt_or_eq_of_le h.length_le with hroom | hlimit
      · have hle := limit_le hlt
        obtain ⟨next, happend, hnext⟩ := h.append hroom ch
        refine iff_of_true ?_ hroom
        rw [Filling.Bounded, if_neg (mt hfull.mp (by omega))]
        exact ⟨next, happend, hnext.length_le_capacity, hnext.chars_eq⟩
      · refine iff_of_false ?_ (Nat.not_lt.mpr hlimit.ge)
        have happend := h.append_at_limit hlimit ch
        by_cases hle : filling.sb.m_capacity.toNat ≤ 2 ^ 31
        · rw [if_pos hle] at happend
          exact not_bounded_of_fail happend
        · -- the buffer is not full, but the character is refused
          rw [if_neg hle] at happend
          rw [limit_of_gt (Nat.not_le.mp hle)] at hlimit
          rw [Filling.Bounded, if_neg (mt hfull.mp (by omega)), happend]
          rintro ⟨next, hok, -⟩
          cases hok

theorem Filling.Sound.call {filling next : Filling} (h : filling.Sound) {action : BufferCall}
    (hroom : filling.HasRoom action) (hcall : filling.call action = ok next) : next.Sound := by
  cases action with
  | clear =>
    cases hcall
    rw [Filling.Sound] at h ⊢
    split at h
    · rename_i hdata
      rw [if_pos (by exact hdata)]
      rfl
    · rename_i hdata
      rw [if_neg (by exact hdata)]
      exact h.clear
  | append ch =>
    rw [Filling.Sound, if_neg hroom.1] at h
    obtain ⟨sb, happend, hnext⟩ := h.append (by rw [← h.length]; exact hroom.2) ch
    rw [Filling.call, happend, bind_ok, ok.injEq] at hcall
    subst hcall
    obtain ⟨mem, hmem, _⟩ := hnext.data
    rw [Filling.Sound, if_neg (by rw [hmem]; exact Option.some_ne_none mem)]
    rw [← hnext.capacity_eq] at hnext
    exact hnext

theorem create_sound (allocator : Allocator) (heap : Heap) (capacity : UInt32) :
    Filling.Sound { sb := (create allocator heap capacity).1 } := by
  rw [Filling.Sound]
  split
  · rfl
  · rename_i hdata
    obtain ⟨chars, hchars⟩ := Option.ne_none_iff_exists'.mp hdata
    exact ⟨rfl, rfl, Nat.zero_le _, chars, hchars, Heap.length_new_chars hchars, List.nil_prefix⟩

/-- A buffer of any capacity keeps within it along a run if and only if characters are
only appended to it below the limit. -/
theorem bounded_run_iff (allocator : Allocator) (heap : Heap) (capacity : UInt32) (actions : List BufferCall) :
    Along Filling.call Filling.Bounded { sb := (create allocator heap capacity).1 } actions ↔
      Along Filling.call Filling.HasRoom { sb := (create allocator heap capacity).1 } actions :=
  Along.iff_of_step Filling.Sound (fun _ action h _ => h.bounded_iff action)
    (fun _ _ _ h _ hroom hcall => h.call hroom hcall) (create_sound allocator heap capacity)
    (Along.of_forall (P := fun _ _ => True) fun _ _ _ => trivial)

end kfw.text.StringBuffer
