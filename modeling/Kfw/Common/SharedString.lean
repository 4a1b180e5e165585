import Kfw.Common.DseString
import Kfw.Lib.Holders
import Kfw.Lib.Run

open exec Result

namespace kfw.shared

/-- A pointer to the characters of a string, with a header in front of them: the
count of references and the length. -/
abbrev dse_string_t := Addr

/-- A pointer to characters: into memory that no `String` owns, of which there is
room for a header besides in the address space, or into the buffer of a
`String`. -/
inductive Pointer where
  | outside (memory : List UInt8) (fits : memory.length + 8 < 2 ^ 32)
  | inside (s : dse_string_t) (offset : Nat)

/-- A `ConstStringRef`. -/
structure ConstStringRef where
  m_data : Pointer
  m_length : UInt32

/-- The memory that can be read from a pointer on. -/
def readable (heap : Heap) : Pointer → Exec (List UInt8)
  | .outside memory _ => ok memory
  | .inside s offset =>
    match heap.live (s - 8) with
    | none => fail .invalid_access
    | some block => ok (block.bytes.drop (4 + offset))

def strlen (heap : Heap) (c_str : Pointer) : Exec UInt32 := do
  let memory ← readable heap c_str
  if 0 ∈ memory then ok (memory.takeWhile (· ≠ 0)).length.toUInt32 else fail .invalid_access

/-- The constructor from a C string. -/
def ConstStringRef.of_c_str (heap : Heap) (c_str : Pointer) : Exec ConstStringRef := do
  let m_length ← strlen heap c_str
  ok { m_data := c_str, m_length }

/-- The bytes of a `uint32_t` in memory. -/
def le_bytes (value : UInt32) : List UInt8 :=
  (List.range 4).map fun i => (value.toNat / 256 ^ i).toUInt8

def dse_string_create (allocator : Allocator) (heap : Heap) (s : ConstStringRef) : Exec (dse_string_t × Heap) :=
  let (p, heap) := heap.operator_new allocator (s.m_length + 8)
  if p = nullptr then ok (nullptr, heap)
  else do
    let heap ← heap.store_word p 1
    let heap ← heap.store_bytes p 0 (le_bytes s.m_length)
    let memory ← readable heap s.m_data
    if memory.length < s.m_length.toNat then fail .invalid_access
    else do
      let heap ← heap.store_bytes p 4 (memory.take s.m_length.toNat)
      ok (p + 8, heap)

def atomic_inc (heap : Heap) (value : Addr) : Exec (Nat × Heap) := do
  let old ← heap.load_word value
  let new := (old + 1) % 2 ^ 32
  let heap ← heap.store_word value new
  ok (new, heap)

def atomic_dec (heap : Heap) (value : Addr) : Exec (Nat × Heap) := do
  let old ← heap.load_word value
  let new := (old + (2 ^ 32 - 1)) % 2 ^ 32
  let heap ← heap.store_word value new
  ok (new, heap)

def dse_string_addref (heap : Heap) (s : dse_string_t) : Exec Heap := do
  let (_, heap) ← atomic_inc heap (s - 8)
  ok heap

def dse_string_release (heap : Heap) (s : dse_string_t) : Exec Heap := do
  let (new_cnt, heap) ← atomic_dec heap (s - 8)
  if new_cnt = 0 then heap.operator_delete (s - 8) else ok heap

/-- `String(const ConstStringRef &s)`. -/
def string_of_ref (allocator : Allocator) (heap : Heap) (s : ConstStringRef) : Exec (dse_string_t × Heap) := do
  let (m_s, heap) ← dse_string_create allocator heap s
  if m_s = nullptr then fail (.system_error kEOutOfMemory) else ok (m_s, heap)

/-- `String(const String &obj)`. -/
def string_copy (heap : Heap) (obj : dse_string_t) : Exec (dse_string_t × Heap) := do
  if obj ≠ nullptr then
    let heap ← dse_string_addref heap obj
    ok (obj, heap)
  else ok (nullptr, heap)

/-- `~String()`, and the first statement of both assignments. -/
def string_release (heap : Heap) (m_s : dse_string_t) : Exec Heap :=
  if m_s ≠ nullptr then dse_string_release heap m_s else ok heap

/-- `operator = (const String &obj)`. -/
def string_assign (heap : Heap) (m_s obj : dse_string_t) : Exec (dse_string_t × Heap) := do
  let heap ← string_release heap m_s
  string_copy heap obj

/-- `operator = (const char8_t *z_str)`. -/
def string_assign_c_str (allocator : Allocator) (heap : Heap) (m_s : dse_string_t) (z_str : Pointer) :
    Exec (dse_string_t × Heap) := do
  let heap ← string_release heap m_s
  let s ← ConstStringRef.of_c_str heap z_str
  dse_string_create allocator heap s

/-- What is at the place of a buffer with `count` holders: nothing if there are
none, and otherwise a block with that count. -/
def BufferOf (count : Nat) : Option Block → Prop
  | none => count = 0
  | some block => 0 < count ∧ block.word = count ∧ 8 ≤ block.size.toNat ∧
      block.bytes.length = block.size.toNat - 4

/-- A buffer is live as long as some variable holds it, and its count says how
many do. -/
structure Counted {V : Type} [Fintype V] (held : V → dse_string_t) (heap : Heap) : Prop where
  counted : ∀ p, BufferOf (holders held (p + 8)) (heap.live p)
  placed : ∀ v, held v = nullptr ∨ 8 ≤ held v

variable {p : Addr} {heap nextHeap : Heap} {block : Block}

theorem atomic_inc_of_live (hlive : heap.live p = some block) (hsize : 4 ≤ block.size.toNat)
    (hcount : block.word + 1 < 2 ^ 32) :
    atomic_inc heap p = ok (block.word + 1, heap.put p (some { block with word := block.word + 1 })) := by
  simp only [atomic_inc, Heap.load_word_of_live hlive hsize, Heap.store_word_of_live hlive hsize, bind_ok,
    Nat.mod_eq_of_lt hcount]

theorem atomic_dec_of_live (hlive : heap.live p = some block) (hsize : 4 ≤ block.size.toNat)
    {count : Nat} (hword : block.word = count + 1) (hcount : count + 1 < 2 ^ 32) :
    atomic_dec heap p = ok (count, heap.put p (some { block with word := count })) := by
  have hnew : (count + 1 + (2 ^ 32 - 1)) % 2 ^ 32 = count := by omega
  simp only [atomic_dec, Heap.load_word_of_live hlive hsize, Heap.store_word_of_live hlive hsize, bind_ok,
    hword, hnew]

/-- Writing over a part of a block leaves the rest of it and all other blocks. -/
theorem store_bytes_window (hlive : heap.live p = some block) (pos : UInt32) (front old tail data : List UInt8)
    (hbytes : block.bytes = front ++ old ++ tail) (hpos : pos.toNat = front.length)
    (hdata : data.length = old.length) :
    ∃ nextHeap, heap.store_bytes p pos data = ok nextHeap ∧
      nextHeap.live p = some { block with bytes := front ++ data ++ tail } ∧
      ∀ q, q ≠ p → nextHeap.live q = heap.live q := by
  have hlength : block.bytes.length = front.length + old.length + tail.length := by
    rw [hbytes, List.length_append, List.length_append]
  refine ⟨_, Heap.store_bytes_of_live hlive pos data (by omega), ?_, fun q hq => Heap.put_live_of_ne hq _⟩
  have hfront : block.bytes.take pos.toNat = front := by
    rw [hbytes, hpos, List.append_assoc, List.take_left]
  have htail : block.bytes.drop (pos.toNat + data.length) = tail := by
    rw [hbytes, hpos, hdata, ← List.length_append, List.drop_left]
  rw [Heap.put_live_self (Heap.live_ne_nullptr hlive), hfront, htail, List.append_assoc]

/-- A pointer into a live block, or outside of all, does not see changes of
another block. -/
theorem readable_frame {pointer : Pointer} {memory : List UInt8} (hread : readable heap pointer = ok memory)
    (hfree : heap.live p = none) (hothers : ∀ q, q ≠ p → nextHeap.live q = heap.live q) :
    readable nextHeap pointer = ok memory := by
  cases pointer with
  | outside outside fits => exact hread
  | inside s offset =>
    have hs : s - 8 ≠ p := by
      intro hs
      simp [readable, hs, hfree] at hread
    rw [readable, hothers _ hs]
    exact hread

@[simp] theorem length_le_bytes (value : UInt32) : (le_bytes value).length = 4 := by simp [le_bytes]

/-- The size of a buffer does not wrap. -/
theorem toNat_add_header {len : UInt32} (hroom : len.toNat + 8 < 2 ^ 32) : (len + 8).toNat = len.toNat + 8 := by
  rw [UInt32.toNat_add]
  exact Nat.mod_eq_of_lt hroom

/-- A new string: nothing if there is no memory, or a buffer with one reference
and the characters. -/
theorem dse_string_create_spec (allocator : Allocator) {s : ConstStringRef} {memory : List UInt8}
    (hread : readable heap s.m_data = ok memory) (hlength : s.m_length.toNat ≤ memory.length)
    (hroom : memory.length + 8 < 2 ^ 32) :
    allocator.alloc heap (s.m_length + 8) = none ∧
        dse_string_create allocator heap s = ok (nullptr, heap.asked) ∨
      ∃ p block nextHeap, allocator.alloc heap (s.m_length + 8) = some (p, block) ∧
        dse_string_create allocator heap s = ok (p + 8, nextHeap) ∧
        nextHeap.live p = some {
          size := s.m_length + 8
          word := 1
          bytes := le_bytes s.m_length ++ memory.take s.m_length.toNat } ∧
        ∀ q, q ≠ p → nextHeap.live q = heap.live q := by
  cases halloc : allocator.alloc heap (s.m_length + 8) with
  | none => exact .inl ⟨rfl, by simp only [dse_string_create, Heap.operator_new_of_none halloc, if_true]⟩
  | some answer =>
    obtain ⟨p, block⟩ := answer
    obtain ⟨hp, hfree⟩ := allocator.fresh _ _ _ _ halloc
    obtain ⟨hblock, hbytes⟩ := allocator.extent _ _ _ _ halloc
    have hsize := toNat_add_header (Nat.lt_of_le_of_lt (Nat.add_le_add_right hlength 8) hroom)
    rw [hsize] at hbytes
    have hnew : (heap.asked.put p (some block)).live p = some block := Heap.put_live_self hp _
    have hword := Heap.store_word_of_live hnew (by rw [hblock, hsize]; omega) 1
    have hcount : ((heap.asked.put p (some block)).put p (some { block with word := 1 })).live p =
        some { block with word := 1 } := Heap.put_live_self hp _
    obtain ⟨withLength, hstoreLength, hlive, hothers⟩ :=
      store_bytes_window hcount 0 [] (block.bytes.take 4) (block.bytes.drop 4) (le_bytes s.m_length)
        (by simp) rfl (by simp; omega)
    have hsame : ∀ q, q ≠ p → withLength.live q = heap.live q := by
      intro q hq
      rw [hothers q hq, Heap.put_live_of_ne hq, Heap.put_live_of_ne hq, Heap.asked_live]
    obtain ⟨nextHeap, hstore, hnext, hothersNext⟩ :=
      store_bytes_window hlive 4 (le_bytes s.m_length) (block.bytes.drop 4) [] (memory.take s.m_length.toNat)
        (by simp) (length_le_bytes s.m_length).symm (by
          rw [List.length_take, Nat.min_eq_left hlength, List.length_drop]
          omega)
    refine .inr ⟨p, block, nextHeap, rfl, ?_, ?_, fun q hq => (hothersNext q hq).trans (hsame q hq)⟩
    · simp only [dse_string_create, Heap.operator_new_of_some halloc, if_neg hp, hword, hstoreLength,
        readable_frame hread hfree hsame, if_neg (Nat.not_lt.mpr hlength), hstore, bind_ok]
    · rw [hnext, hblock, List.append_nil]

/-- The counted string has the characters that a string has by its characters
alone. -/
theorem dse_string_create_chars (allocator : Allocator) {memory : List UInt8} (fits : memory.length + 8 < 2 ^ 32)
    {m_length : UInt32} (hlength : m_length.toNat ≤ memory.length) :
    ∃ m_s nextHeap chars, dse_string_create allocator heap ⟨.outside memory fits, m_length⟩ = ok (m_s, nextHeap) ∧
      kfw.dse_string_create allocator heap { m_data := memory, m_length } = ok (chars, heap.asked) ∧
      (chars = none ∧ m_s = nullptr ∨
        ∃ text, chars = some text ∧ m_s ≠ nullptr ∧ readable nextHeap (.inside m_s 0) = ok text) := by
  have hread : readable heap (.outside memory fits) = ok memory := rfl
  rcases dse_string_create_spec (s := ⟨.outside memory fits, m_length⟩) allocator hread hlength fits with
    ⟨halloc, hcreate⟩ | ⟨p, block, nextHeap, halloc, hcreate, hlive, _⟩
  · refine ⟨_, _, none, hcreate, ?_, .inl ⟨rfl, rfl⟩⟩
    simp only [kfw.dse_string_create, Heap.new_chars, halloc]
  · obtain ⟨hblock, hbytes⟩ := allocator.extent _ _ _ _ halloc
    have hchars : block.chars.length = m_length.toNat + 8 := by
      rw [← hblock] at hbytes
      rw [Block.length_chars hbytes, hblock]
      exact toNat_add_header (Nat.lt_of_le_of_lt (Nat.add_le_add_right hlength 8) fits)
    have hroom : ¬ (block.chars.length < m_length.toNat + 8 ∨ memory.length < m_length.toNat) := by omega
    refine ⟨_, _, some (memory.take m_length.toNat), hcreate, ?_, .inr ⟨_, rfl, Nat.succ_ne_zero _, ?_⟩⟩
    · simp only [kfw.dse_string_create, Heap.new_chars, halloc, if_neg hroom]
    · simp only [readable, Nat.add_sub_cancel, hlive, Nat.add_zero, ← length_le_bytes m_length, List.drop_left]

/-- A reference to a buffer that was freed cannot be counted. -/
theorem dse_string_addref_of_freed (hfreed : heap.live p = none) :
    dse_string_addref heap (p + 8) = fail .invalid_access := by
  simp [dse_string_addref, atomic_inc, Heap.load_word, hfreed]

/-- Nothing can be read through a pointer into a buffer that was freed. -/
theorem readable_of_freed {s : dse_string_t} (hfreed : heap.live (s - 8) = none) (offset : Nat) :
    readable heap (.inside s offset) = fail .invalid_access := by
  rw [readable, hfreed]

namespace Counted

section

variable {V : Type} [Fintype V] {held : V → dse_string_t} {v : V}

theorem bufferOf (h : Counted held heap) (hlive : heap.live p = some block) :
    0 < holders held (p + 8) ∧ block.word = holders held (p + 8) ∧ 8 ≤ block.size.toNat ∧
      block.bytes.length = block.size.toNat - 4 := by
  have hbuffer := h.counted p
  rw [hlive] at hbuffer
  exact hbuffer

theorem freed_iff (h : Counted held heap) : heap.live p = none ↔ holders held (p + 8) = 0 := by
  have hbuffer := h.counted p
  cases hlive : heap.live p with
  | none =>
    rw [hlive] at hbuffer
    exact iff_of_true rfl hbuffer
  | some block => simp [Nat.ne_of_gt (h.bufferOf hlive).1]

/-- The buffer that a variable holds. -/
theorem live_of_held (h : Counted held heap) (hv : held v = p + 8) : ∃ block, heap.live p = some block := by
  refine Option.ne_none_iff_exists'.mp fun hfreed => ?_
  have hpos : 0 < holders held (p + 8) := holders_pos_iff.mpr ⟨v, hv⟩
  rw [h.freed_iff.mp hfreed] at hpos
  exact Nat.lt_irrefl 0 hpos

/-- A variable holds nothing or a live buffer. -/
theorem held_cases (h : Counted held heap) (v : V) :
    held v = nullptr ∨ ∃ p block, held v = p + 8 ∧ heap.live p = some block := by
  refine (h.placed v).imp_right fun hplaced => ?_
  have hv : held v = held v - 8 + 8 := (Nat.sub_add_cancel hplaced).symm
  obtain ⟨block, hlive⟩ := h.live_of_held hv
  exact ⟨_, block, hv, hlive⟩

/-- Memory that can be read leaves room for a header. -/
theorem readable_length (h : Counted held heap) {pointer : Pointer} {memory : List UInt8}
    (hread : readable heap pointer = ok memory) : memory.length + 8 < 2 ^ 32 := by
  cases pointer with
  | outside outside fits =>
    cases hread
    exact fits
  | inside s offset =>
    simp only [readable] at hread
    split at hread
    · cases hread
    · rename_i block hlive
      cases hread
      have hblock := h.bufferOf hlive
      have hsize := block.size.toNat_lt
      rw [List.length_drop]
      omega

end

variable {V : Type} [Fintype V] [DecidableEq V] {held : V → dse_string_t} {v : V}

/-- One buffer and one variable change together. -/
theorem update (h : Counted held heap) {new : dse_string_t} (hold : held v = nullptr ∨ held v = p + 8)
    (hnew : new = nullptr ∨ new = p + 8)
    (hself : BufferOf (holders (Function.update held v new) (p + 8)) (nextHeap.live p))
    (hothers : ∀ q, q ≠ p → nextHeap.live q = heap.live q) :
    Counted (Function.update held v new) nextHeap := by
  constructor
  · intro q
    by_cases hq : q = p
    · rw [hq]
      exact hself
    · have hother : ∀ s : dse_string_t, s = nullptr ∨ s = p + 8 → s ≠ q + 8 := by
        rintro s (rfl | rfl) heq
        · exact Nat.succ_ne_zero _ heq.symm
        · exact hq (Nat.add_right_cancel heq).symm
      rw [holders_update_other (hother _ hold) (hother _ hnew), hothers q hq]
      exact h.counted q
  · intro other
    by_cases hother : other = v
    · rw [hother, Function.update_self]
      exact hnew.imp_right fun hplaced => hplaced.symm.subst (Nat.le_add_left 8 p)
    · rw [Function.update_of_ne hother]
      exact h.placed other

/-- Taking a reference that a variable did not have. -/
theorem addref (h : Counted held heap) (hcard : Fintype.card V < 2 ^ 32) (hv : held v = nullptr)
    (hlive : heap.live p = some block) :
    ∃ nextHeap, dse_string_addref heap (p + 8) = ok nextHeap ∧
      Counted (Function.update held v (p + 8)) nextHeap := by
  obtain ⟨_, hword, hsize, hbytes⟩ := h.bufferOf hlive
  have hnot : held v ≠ p + 8 := by
    rw [hv]
    exact (Nat.succ_ne_zero _).symm
  have hcount := holders_update_self hnot
  have hbound := holders_le_card (Function.update held v (p + 8)) (p + 8)
  refine ⟨heap.put p (some { block with word := block.word + 1 }), ?_, ?_⟩
  · have hfits : block.word + 1 < 2 ^ 32 := by
      rw [hword, ← hcount]
      exact Nat.lt_of_le_of_lt hbound hcard
    rw [dse_string_addref, Nat.add_sub_cancel, atomic_inc_of_live hlive (by omega) hfits, bind_ok]
  · refine h.update (.inl hv) (.inr rfl) ?_ fun q hq => Heap.put_live_of_ne hq _
    rw [Heap.put_live_self (Heap.live_ne_nullptr hlive), hcount, ← hword]
    exact ⟨Nat.succ_pos _, rfl, hsize, hbytes⟩

/-- Giving up the reference that a variable has. The buffer is freed if it was
the only one. -/
theorem release (h : Counted held heap) (hcard : Fintype.card V < 2 ^ 32) (hv : held v = p + 8)
    (hlive : heap.live p = some block) :
    ∃ nextHeap, dse_string_release heap (p + 8) = ok nextHeap ∧
      Counted (Function.update held v nullptr) nextHeap ∧
      (∀ q, q ≠ p → nextHeap.live q = heap.live q) ∧
      (holders held (p + 8) ≠ 1 → ∃ word, nextHeap.live p = some { block with word }) := by
  have hp := Heap.live_ne_nullptr hlive
  obtain ⟨hpos, hword, hsize, hbytes⟩ := h.bufferOf hlive
  have hnot : nullptr ≠ p + 8 := (Nat.succ_ne_zero _).symm
  have hcount := holders_update_gone hv hnot
  have hbound := holders_le_card held (p + 8)
  obtain ⟨count, hholders⟩ : ∃ count, holders (Function.update held v nullptr) (p + 8) = count := ⟨_, rfl⟩
  rw [hholders] at hcount
  have hdec : atomic_dec heap p = ok (count, heap.put p (some { block with word := count })) :=
    atomic_dec_of_live hlive (by omega) (hword.trans hcount.symm) (by omega)
  by_cases hlast : count = 0
  · refine ⟨(heap.put p (some { block with word := count })).put p none, ?_, ?_, ?_, ?_⟩
    · rw [dse_string_release, Nat.add_sub_cancel, hdec, bind_ok]
      simp only [if_pos hlast]
      exact Heap.operator_delete_of_live (Heap.put_live_self hp _)
    · refine h.update (.inr hv) (.inl rfl) ?_ fun q hq => ?_
      · rw [hholders, Heap.put_live_self hp]
        exact hlast
      · rw [Heap.put_live_of_ne hq, Heap.put_live_of_ne hq]
    · intro q hq
      rw [Heap.put_live_of_ne hq, Heap.put_live_of_ne hq]
    · intro hshared
      omega
  · refine ⟨heap.put p (some { block with word := count }), ?_, ?_, fun q hq => Heap.put_live_of_ne hq _, ?_⟩
    · rw [dse_string_release, Nat.add_sub_cancel, hdec, bind_ok]
      simp only [if_neg hlast]
    · refine h.update (.inr hv) (.inl rfl) ?_ fun q hq => Heap.put_live_of_ne hq _
      rw [hholders, Heap.put_live_self hp]
      exact ⟨Nat.pos_of_ne_zero hlast, rfl, hsize, hbytes⟩
    · exact fun _ => ⟨count, Heap.put_live_self hp _⟩

/-- A buffer is freed when the variable that alone held it gives it up. -/
theorem freed_of_sole (h : Counted (Function.update held v nullptr) nextHeap) (hv : held v = p + 8)
    (hsole : holders held (p + 8) = 1) : nextHeap.live p = none := by
  have hgone := holders_update_gone hv (Nat.succ_ne_zero (p + 7)).symm
  rw [hsole] at hgone
  exact h.freed_iff.mpr (Nat.succ.inj hgone)

/-- The first statement of an assignment. Only pointers into a buffer that was
the variable's alone are then invalid. -/
theorem string_release (h : Counted held heap) (hcard : Fintype.card V < 2 ^ 32) (v : V) :
    ∃ nextHeap, shared.string_release heap (held v) = ok nextHeap ∧
      Counted (Function.update held v nullptr) nextHeap ∧
      ∀ pointer memory, readable heap pointer = ok memory →
        (∀ offset, pointer = .inside (held v) offset → holders held (held v) ≠ 1) →
        readable nextHeap pointer = ok memory := by
  obtain hnull | ⟨p, block, hv, hlive⟩ := h.held_cases v
  · refine ⟨heap, ?_, ?_, fun _ _ hread _ => hread⟩
    · rw [shared.string_release, hnull]
      rfl
    · rw [← hnull, Function.update_eq_self]
      exact h
  · have hnull : held v ≠ nullptr := by
      rw [hv]
      exact Nat.succ_ne_zero _
    obtain ⟨nextHeap, hrelease, hcounted, hothers, hself⟩ := h.release hcard hv hlive
    refine ⟨nextHeap, ?_, hcounted, ?_⟩
    · rw [shared.string_release, if_pos hnull, hv, hrelease]
    · intro pointer memory hread hshared
      cases pointer with
      | outside outside fits => exact hread
      | inside s offset =>
        by_cases hs : s - 8 = p
        · have hpos : 0 < s - 8 := by
            rw [hs]
            exact Nat.pos_of_ne_zero (Heap.live_ne_nullptr hlive)
          obtain rfl : s = p + 8 := Nat.eq_add_of_sub_eq (Nat.le_of_lt (Nat.lt_of_sub_pos hpos)) hs
          obtain ⟨word, hnext⟩ := hself (hv ▸ hshared offset (by rw [hv]))
          simp only [readable, Nat.add_sub_cancel, hlive, hnext] at hread ⊢
          exact hread
        · rw [readable, hothers _ hs]
          exact hread

/-- A copy of what some variable holds, for one that holds nothing. -/
theorem string_copy (h : Counted held heap) (hcard : Fintype.card V < 2 ^ 32) (hv : held v = nullptr)
    {obj : dse_string_t} (hobj : obj = nullptr ∨ ∃ w, held w = obj) :
    ∃ nextHeap, shared.string_copy heap obj = ok (obj, nextHeap) ∧
      Counted (Function.update held v obj) nextHeap := by
  by_cases hnull : obj = nullptr
  · refine ⟨heap, by simp [shared.string_copy, hnull], ?_⟩
    rw [hnull, ← hv, Function.update_eq_self]
    exact h
  · obtain ⟨w, rfl⟩ := hobj.resolve_left hnull
    obtain ⟨p, block, hw, hlive⟩ := (h.held_cases w).resolve_left hnull
    obtain ⟨nextHeap, haddref, hcounted⟩ := h.addref hcard hv hlive
    rw [← hw] at haddref hcounted
    exact ⟨nextHeap, by simp [shared.string_copy, hnull, haddref], hcounted⟩

/-- A new string, for a variable that held none. -/
theorem create (h : Counted held heap) (hv : held v = nullptr) (allocator : Allocator) {s : ConstStringRef}
    {memory : List UInt8} (hread : readable heap s.m_data = ok memory)
    (hlength : s.m_length.toNat ≤ memory.length) :
    ∃ m_s nextHeap, dse_string_create allocator heap s = ok (m_s, nextHeap) ∧
      Counted (Function.update held v m_s) nextHeap := by
  rcases dse_string_create_spec allocator hread hlength (h.readable_length hread) with
    ⟨_, hnone⟩ | ⟨p, block, nextHeap, halloc, hcreate, hlive, hothers⟩
  · refine ⟨nullptr, heap.asked, hnone, ?_⟩
    rw [← hv, Function.update_eq_self]
    exact ⟨h.counted, h.placed⟩
  · refine ⟨p + 8, nextHeap, hcreate, h.update (.inl hv) (.inr rfl) ?_ hothers⟩
    have hnot : held v ≠ p + 8 := by
      rw [hv]
      exact (Nat.succ_ne_zero _).symm
    have hfree := (allocator.fresh _ _ _ _ halloc).2
    have hsize := toNat_add_header (Nat.lt_of_le_of_lt (Nat.add_le_add_right hlength 8)
      (h.readable_length hread))
    rw [holders_update_self hnot, h.freed_iff.mp hfree, hlive]
    refine ⟨Nat.one_pos, rfl, ?_, ?_⟩
    · rw [hsize]
      omega
    · rw [hsize, List.length_append, List.length_take, Nat.min_eq_left hlength, length_le_bytes]
      omega

end Counted

end kfw.shared
