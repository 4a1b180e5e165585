import Kfw.Common.Base

open exec Result

namespace kfw

/-- A block of the heap: its size, the first word in it and the bytes that
follow. -/
structure Block where
  size : UInt32
  word : Addr
  bytes : List UInt8

/-- The block as characters, its first word taken apart. -/
def Block.chars (block : Block) : List UInt8 :=
  ((List.range 4).map (fun i => (block.word / 256 ^ i).toUInt8) ++ block.bytes).take block.size.toNat

theorem Block.length_chars {block : Block} (hbytes : block.bytes.length = block.size.toNat - 4) :
    block.chars.length = block.size.toNat := by
  rw [chars, List.length_take, List.length_append, List.length_map, List.length_range, hbytes]
  omega

/-- The blocks in use, all of them below `limit`, and how many requests for
memory there have been. -/
structure Heap where
  live : Addr → Option Block
  limit : Addr
  requests : Nat
  null : live nullptr = none
  above : ∀ addr, limit ≤ addr → live addr = none

/-- The kernel's allocator behind `operator new`. It may look at the whole heap
to answer a request, may refuse it, and leaves anything in the memory it gives. -/
structure Allocator where
  alloc : Heap → UInt32 → Option (Addr × Block)
  fresh : ∀ heap size addr block, alloc heap size = some (addr, block) →
    addr ≠ nullptr ∧ heap.live addr = none
  extent : ∀ heap size addr block, alloc heap size = some (addr, block) →
    block.size = size ∧ block.bytes.length = size.toNat - 4

namespace Allocator

/-- Every request is granted. -/
def Grants (allocator : Allocator) : Prop :=
  ∀ heap size, (allocator.alloc heap size).isSome

/-- The first word of the memory given at an address is always as `P` says. -/
def GivesWord (allocator : Allocator) (P : Addr → Addr → Prop) : Prop :=
  ∀ heap size addr block, allocator.alloc heap size = some (addr, block) → P addr block.word

/-- The allocator that goes up through memory, where the first word at each
address is given by `word` and the rest is zero. -/
def bump (word : Addr → Addr) : Allocator where
  alloc heap size :=
    some (heap.limit + 1, { size, word := word (heap.limit + 1), bytes := List.replicate (size.toNat - 4) 0 })
  fresh := by
    rintro heap size addr block ⟨⟩
    exact ⟨Nat.succ_ne_zero _, heap.above _ (Nat.le_succ _)⟩
  extent := by
    rintro heap size addr block ⟨⟩
    exact ⟨rfl, List.length_replicate⟩

/-- The same, for the first `count` requests only. -/
def limited (count : Nat) : Allocator where
  alloc heap size := if heap.requests < count then (bump id).alloc heap size else none
  fresh := by
    intro heap size addr block halloc
    split at halloc
    · exact (bump id).fresh heap size addr block halloc
    · cases halloc
  extent := by
    intro heap size addr block halloc
    split at halloc
    · exact (bump id).extent heap size addr block halloc
    · cases halloc

theorem bump_grants (word : Addr → Addr) : (bump word).Grants := fun _ _ => rfl

theorem bump_givesWord {word : Addr → Addr} {P : Addr → Addr → Prop}
    (hword : ∀ addr, P addr (word addr)) :
    (bump word).GivesWord P := by
  rintro heap size addr block ⟨⟩
  exact hword _

end Allocator

namespace Heap

/-- The heap before the first request. -/
def empty : Heap :=
  { live := fun _ => none, limit := 0, requests := 0, null := rfl, above := fun _ _ => rfl }

/-- The heap with something else at an address. -/
def put (heap : Heap) (addr : Addr) (block : Option Block) : Heap where
  live other := if other = nullptr then none else if other = addr then block else heap.live other
  limit := max heap.limit (addr + 1)
  requests := heap.requests
  null := if_pos rfl
  above := by
    intro other habove
    have hlimit : heap.limit ≤ other := Nat.le_trans (Nat.le_max_left _ _) habove
    have hother : other ≠ addr := Nat.ne_of_gt (Nat.le_trans (Nat.le_max_right _ _) habove)
    simp only [if_neg hother, heap.above other hlimit, ite_self]

/-- The heap after one more request. -/
def asked (heap : Heap) : Heap := { heap with requests := heap.requests + 1 }

/-- The first word of a block, as a function of its address. -/
def word (heap : Heap) (addr : Addr) : Addr := (heap.live addr).elim nullptr Block.word

/-- The bytes after the first word. -/
def bytes (heap : Heap) (addr : Addr) : List UInt8 := (heap.live addr).elim [] Block.bytes

/-- `new uint8_t[size]`. -/
def operator_new (allocator : Allocator) (heap : Heap) (size : UInt32) : Addr × Heap :=
  match allocator.alloc heap size with
  | none => (nullptr, heap.asked)
  | some (addr, block) => (addr, heap.asked.put addr (some block))

/-- `new char8_t[size]`, for characters that only their owner can reach: what
the memory holds is passed on, and the block is not followed further. -/
def new_chars (allocator : Allocator) (heap : Heap) (size : UInt32) : Option (List UInt8) × Heap :=
  match allocator.alloc heap size with
  | none => (none, heap.asked)
  | some (_, block) => (some block.chars, heap.asked)

/-- `delete`, on a block in use. -/
def operator_delete (heap : Heap) (addr : Addr) : Exec Heap :=
  match heap.live addr with
  | none => fail .invalid_access
  | some _ => ok (heap.put addr none)

def load_word (heap : Heap) (addr : Addr) : Exec Addr :=
  match heap.live addr with
  | none => fail .invalid_access
  | some block => if block.size < 4 then fail .invalid_access else ok block.word

def store_word (heap : Heap) (addr word : Addr) : Exec Heap :=
  match heap.live addr with
  | none => fail .invalid_access
  | some block =>
    if block.size < 4 then fail .invalid_access
    else ok (heap.put addr (some { block with word }))

/-- The first `size` bytes after the first word of a block. -/
def load_bytes (heap : Heap) (addr : Addr) (size : UInt32) : Exec (List UInt8) :=
  match heap.live addr with
  | none => fail .invalid_access
  | some block =>
    if block.bytes.length < size.toNat then fail .invalid_access
    else ok (block.bytes.take size.toNat)

/-- Copy `data` behind the first word of a block, from position `pos` on. -/
def store_bytes (heap : Heap) (addr : Addr) (pos : UInt32) (data : List UInt8) : Exec Heap :=
  match heap.live addr with
  | none => fail .invalid_access
  | some block =>
    if block.bytes.length < pos.toNat + data.length then fail .invalid_access
    else ok (heap.put addr (some { block with
      bytes := block.bytes.take pos.toNat ++ (data ++ block.bytes.drop (pos.toNat + data.length)) }))

variable {heap : Heap} {addr other : Addr} {block : Block}

theorem live_ne_nullptr (hlive : heap.live addr = some block) : addr ≠ nullptr := by
  rintro rfl
  rw [heap.null] at hlive
  cases hlive

@[simp] theorem asked_live (heap : Heap) : heap.asked.live = heap.live := rfl

theorem put_live_self (haddr : addr ≠ nullptr) (block : Option Block) :
    (heap.put addr block).live addr = block := by
  simp only [put, if_neg haddr, if_true]

theorem put_live_of_ne (hother : other ≠ addr) (block : Option Block) :
    (heap.put addr block).live other = heap.live other := by
  by_cases hnull : other = nullptr
  · simp only [put, if_pos hnull]
    rw [hnull, heap.null]
  · simp only [put, if_neg hnull, if_neg hother]

theorem word_of_live (hlive : heap.live addr = some block) : heap.word addr = block.word := by
  rw [word, hlive, Option.elim_some]

theorem bytes_of_live (hlive : heap.live addr = some block) : heap.bytes addr = block.bytes := by
  rw [bytes, hlive, Option.elim_some]

theorem put_word_of_ne (hother : other ≠ addr) (block : Option Block) :
    (heap.put addr block).word other = heap.word other := by
  rw [word, put_live_of_ne hother, word]

theorem operator_new_of_some {allocator : Allocator} {size : UInt32}
    (halloc : allocator.alloc heap size = some (addr, block)) :
    heap.operator_new allocator size = (addr, heap.asked.put addr (some block)) := by
  rw [operator_new, halloc]

theorem operator_new_of_none {allocator : Allocator} {size : UInt32}
    (halloc : allocator.alloc heap size = none) :
    heap.operator_new allocator size = (nullptr, heap.asked) := by
  rw [operator_new, halloc]

@[simp] theorem new_chars_live (allocator : Allocator) (heap : Heap) (size : UInt32) :
    (heap.new_chars allocator size).2.live = heap.live := by
  rw [new_chars]
  split <;> rfl

theorem length_new_chars {allocator : Allocator} {heap : Heap} {size : UInt32} {chars : List UInt8}
    (h : (heap.new_chars allocator size).1 = some chars) : chars.length = size.toNat := by
  rw [new_chars] at h
  split at h
  · cases h
  · rename_i addr block halloc
    cases h
    obtain ⟨hsize, hbytes⟩ := allocator.extent _ _ _ _ halloc
    rw [← hsize] at hbytes ⊢
    exact Block.length_chars hbytes

theorem new_chars_granted {allocator : Allocator} (hgrants : allocator.Grants) (heap : Heap)
    (size : UInt32) :
    ∃ chars, heap.new_chars allocator size = (some chars, heap.asked) ∧ chars.length = size.toNat := by
  obtain ⟨⟨addr, block⟩, halloc⟩ := Option.isSome_iff_exists.mp (hgrants heap size)
  have hnew : heap.new_chars allocator size = (some block.chars, heap.asked) := by rw [new_chars, halloc]
  exact ⟨block.chars, hnew, length_new_chars (by rw [hnew])⟩

theorem operator_delete_of_live (hlive : heap.live addr = some block) :
    heap.operator_delete addr = ok (heap.put addr none) := by
  rw [operator_delete, hlive]

theorem load_word_of_live (hlive : heap.live addr = some block) (hsize : 4 ≤ block.size.toNat) :
    heap.load_word addr = ok block.word := by
  have hnot : ¬ block.size < 4 := by
    rw [UInt32.lt_iff_toNat_lt]
    exact Nat.not_lt.mpr hsize
  simp only [load_word, hlive, if_neg hnot]

theorem store_word_of_live (hlive : heap.live addr = some block) (hsize : 4 ≤ block.size.toNat)
    (word : Addr) :
    heap.store_word addr word = ok (heap.put addr (some { block with word })) := by
  have hnot : ¬ block.size < 4 := by
    rw [UInt32.lt_iff_toNat_lt]
    exact Nat.not_lt.mpr hsize
  simp only [store_word, hlive, if_neg hnot]

theorem load_bytes_of_live (hlive : heap.live addr = some block) (size : UInt32)
    (hsize : size.toNat ≤ block.bytes.length) :
    heap.load_bytes addr size = ok (block.bytes.take size.toNat) := by
  simp only [load_bytes, hlive, if_neg (Nat.not_lt.mpr hsize)]

theorem store_bytes_of_live (hlive : heap.live addr = some block) (pos : UInt32) (data : List UInt8)
    (hsize : pos.toNat + data.length ≤ block.bytes.length) :
    heap.store_bytes addr pos data = ok (heap.put addr (some { block with
      bytes := block.bytes.take pos.toNat ++ (data ++ block.bytes.drop (pos.toNat + data.length)) })) := by
  simp only [store_bytes, hlive, if_neg (Nat.not_lt.mpr hsize)]

end Heap

end kfw
