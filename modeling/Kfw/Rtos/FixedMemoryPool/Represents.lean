import Kfw.Rtos.FixedMemoryPool
import Kfw.Lib.Segment

open exec Result

namespace kfw.rtos.FixedMemoryPool

/-- The address of the `index`-th block of the buffer. -/
def block (self : FixedMemoryPool) (index : Nat) : Addr :=
  self.m_buffer + self.m_block_size.toNat * index

/-- What the pool's fields stand for: a buffer of `count` blocks, the first
`used` of which have left the fresh area; of these `free` are chained in the
free list and `out` are with the callers. The chain ends at `tail`, the value
`m_free_list` had when the pool was created. -/
structure Represents (pool : FixedMemoryPool) (mem : Addr → Addr) (count used : Nat)
    (free : List Addr) (tail : Addr) (out : List Addr) : Prop where
  buffer : pool.m_buffer ≠ nullptr
  block_size : 0 < pool.m_block_size.toNat
  extent : pool.m_buffer_size.toNat = pool.m_block_size.toNat * count
  allocated : pool.m_allocated_buffer_size.toNat = pool.m_block_size.toNat * used
  used_le : used ≤ count
  chain : Segment mem pool.m_free_list free tail
  owned : (free ++ out).Perm ((List.range used).map pool.block)

/-- Neither buffer nor semaphore, as before the first `create` and after a
`dispose`. The free list may point anywhere. -/
structure Uncreated (pool : FixedMemoryPool) : Prop where
  buffer : pool.m_buffer = nullptr
  handle : pool.m_sem.m_handle = kInvalidSemaphoreHandle

/-- Arguments and outcomes of a proper `create`: a block can hold a link word,
the size of the buffer fits, and memory and semaphore are granted. -/
structure CreateContract (block_size block_count : UInt32) (buffer : Addr) (er_id : Int) : Prop where
  word : 4 ≤ block_size.toNat
  fits : block_size.toNat * block_count.toNat < 2 ^ 32
  memory : buffer ≠ nullptr
  id : 0 < er_id

theorem CreateContract.block_size {block_size block_count : UInt32} {buffer : Addr} {er_id : Int}
    (h : CreateContract block_size block_count buffer er_id) : 0 < block_size.toNat :=
  Nat.lt_of_lt_of_le (by decide) h.word

theorem CreateContract.count_lt {block_size block_count : UInt32} {buffer : Addr} {er_id : Int}
    (h : CreateContract block_size block_count buffer er_id) : block_count.toNat < 2 ^ 32 - 1 := by
  have hmul := Nat.mul_le_mul_right block_count.toNat h.word
  have hfits := h.fits
  omega

/-- The pool that `create` leaves, whatever it was given. -/
def created (before : FixedMemoryPool) (block_size block_count : UInt32) (buffer : Addr) (er_id : Int) :
    FixedMemoryPool :=
  { before with
    m_buffer := buffer
    m_allocated_buffer_size := 0
    m_buffer_size := block_size * block_count
    m_block_size := block_size
    m_sem := { m_handle := er_id, semcnt := block_count.toNat, maxsem := 2 ^ 32 - 1 } }

/-- Off a created pool, `create` fails only if the semaphore is refused, and then for good. -/
theorem Uncreated.create_eq {before : FixedMemoryPool} (h : before.Uncreated) (block_size block_count : UInt32)
    (buffer : Addr) (er_id : Int) :
    before.create block_size block_count buffer er_id =
      if er_id < 0 then fail (.system_error kEResource)
      else ok (kOk, before.created block_size block_count buffer er_id) := by
  by_cases hid : er_id < 0
  · simp [FixedMemoryPool.create, Semaphore.create, h.buffer, h.handle, hid]
  · simp [FixedMemoryPool.create, Semaphore.create, h.buffer, h.handle, hid, created]

/-- Creating a pool whose size fits gives a fresh area of `block_count` blocks and as
many tokens, whatever the free list still points to. -/
theorem Uncreated.create_of_fits {before : FixedMemoryPool} (h : before.Uncreated)
    {block_size block_count : UInt32} {buffer : Addr} {er_id : Int} (hsize : 0 < block_size.toNat)
    (hfits : block_size.toNat * block_count.toNat < 2 ^ 32) (hmemory : buffer ≠ nullptr) (hid : 0 < er_id)
    (mem : Addr → Addr) :
    ∃ pool, before.create block_size block_count buffer er_id = ok (kOk, pool) ∧
      pool.Represents mem block_count.toNat 0 [] before.m_free_list [] ∧
      pool.m_buffer = buffer ∧ pool.m_block_size = block_size ∧
      pool.m_sem = { m_handle := er_id, semcnt := block_count.toNat, maxsem := 2 ^ 32 - 1 } := by
  have hextent : (block_size * block_count).toNat = block_size.toNat * block_count.toNat := by
    rw [UInt32.toNat_mul, Nat.mod_eq_of_lt hfits]
  refine ⟨before.created block_size block_count buffer er_id, ?_, ?_, rfl, rfl, rfl⟩
  · rw [h.create_eq, if_neg (by omega)]
  · exact ⟨hmemory, hsize, hextent, rfl, Nat.zero_le _, rfl, by simp⟩

theorem Uncreated.create {before : FixedMemoryPool} (h : before.Uncreated)
    {block_size block_count : UInt32} {buffer : Addr} {er_id : Int}
    (hcontract : CreateContract block_size block_count buffer er_id) (mem : Addr → Addr) :
    ∃ pool, before.create block_size block_count buffer er_id = ok (kOk, pool) ∧
      pool.Represents mem block_count.toNat 0 [] before.m_free_list [] ∧
      pool.m_buffer = buffer ∧ pool.m_block_size = block_size ∧
      pool.m_sem = { m_handle := er_id, semcnt := block_count.toNat, maxsem := 2 ^ 32 - 1 } :=
  h.create_of_fits hcontract.block_size hcontract.fits hcontract.memory hcontract.id mem

variable {pool : FixedMemoryPool} {mem : Addr → Addr} {count used : Nat} {free out : List Addr}
  {tail : Addr}

theorem block_injective (hsize : 0 < pool.m_block_size.toNat) : Function.Injective pool.block := by
  intro first second heq
  have hmul : pool.m_block_size.toNat * first = pool.m_block_size.toNat * second := by
    simpa [block] using heq
  exact Nat.eq_of_mul_eq_mul_left hsize hmul

theorem Represents.nodup (h : pool.Represents mem count used free tail out) : (free ++ out).Nodup :=
  h.owned.nodup_iff.mpr (List.nodup_range.map (block_injective h.block_size))

theorem Represents.length_eq (h : pool.Represents mem count used free tail out) :
    free.length + out.length = used := by
  simpa using h.owned.length_eq

theorem Represents.mem_out (h : pool.Represents mem count used free tail out) {block : Addr}
    (hblock : block ∈ out) : ∃ index < count, block = pool.block index := by
  have hmem : block ∈ (List.range used).map pool.block :=
    h.owned.subset (List.mem_append_right free hblock)
  obtain ⟨index, hindex, rfl⟩ := List.mem_map.mp hmem
  exact ⟨index, (List.mem_range.mp hindex).trans_le h.used_le, rfl⟩

theorem Represents.block_ne_nullptr (h : pool.Represents mem count used free tail out) (index : Nat) :
    pool.block index ≠ nullptr :=
  fun hnull => h.buffer (Nat.eq_zero_of_add_eq_zero_right hnull)

theorem Represents.perm (h : pool.Represents mem count used free tail out) {others : List Addr}
    (hperm : others.Perm out) : pool.Represents mem count used free tail others :=
  { h with owned := (hperm.append_left free).trans h.owned }

/-- Writing a word that is not the link of a free block leaves the pool intact. -/
theorem Represents.write (h : pool.Represents mem count used free tail out) {addr : Addr}
    (haddr : addr ∉ free) (word : Addr) :
    pool.Represents (Function.update mem addr word) count used free tail out :=
  { h with chain := h.chain.update haddr word }

/-- The semaphore is not part of what the buffer holds. -/
theorem Represents.set_sem (h : pool.Represents mem count used free tail out) (sem : Semaphore) :
    ({ pool with m_sem := sem } : FixedMemoryPool).Represents mem count used free tail out :=
  ⟨h.buffer, h.block_size, h.extent, h.allocated, h.used_le, h.chain, h.owned⟩

theorem Represents.allocated_eq_iff (h : pool.Represents mem count used free tail out) :
    pool.m_allocated_buffer_size = pool.m_buffer_size ↔ used = count := by
  rw [← UInt32.toNat_inj, h.allocated, h.extent]
  exact ⟨Nat.eq_of_mul_eq_mul_left h.block_size, fun heq => heq ▸ rfl⟩

/-- While the fresh area lasts, a section hands out its first block. -/
theorem Represents.take_fresh (h : pool.Represents mem count used free tail out) (hfresh : used < count) :
    ∃ next, pool.take_block mem = ok (pool.block used, next) ∧
      next.Represents mem count (used + 1) free tail (pool.block used :: out) ∧
      next.m_buffer = pool.m_buffer ∧ next.m_block_size = pool.m_block_size ∧
      next.m_sem = pool.m_sem := by
  have hne : pool.m_allocated_buffer_size ≠ pool.m_buffer_size :=
    fun heq => hfresh.ne (h.allocated_eq_iff.mp heq)
  have hbound : pool.m_block_size.toNat * (used + 1) ≤ pool.m_buffer_size.toNat := by
    rw [h.extent]
    exact Nat.mul_le_mul_left _ hfresh
  have hnext : (pool.m_allocated_buffer_size + pool.m_block_size).toNat =
      pool.m_block_size.toNat * (used + 1) := by
    have hlt := pool.m_buffer_size.toNat_lt
    have hmul := Nat.mul_add_one pool.m_block_size.toNat used
    rw [UInt32.toNat_add, h.allocated, Nat.mod_eq_of_lt (by omega), hmul]
  refine ⟨{ pool with m_allocated_buffer_size := pool.m_allocated_buffer_size + pool.m_block_size },
    ?_, ⟨h.buffer, h.block_size, h.extent, hnext, hfresh, h.chain, ?_⟩, rfl, rfl, rfl⟩
  · rw [take_block, if_pos hne, block, h.allocated]
  · rw [List.range_succ, List.map_append]
    have hmiddle : (free ++ pool.block used :: out).Perm (pool.block used :: (free ++ out)) :=
      List.perm_middle
    exact (hmiddle.trans (h.owned.cons _)).trans (List.perm_append_singleton _ _).symm

/-- Once the fresh area is used up, a section hands out the head of the free list. -/
theorem Represents.take_free {head : Addr} {rest : List Addr}
    (h : pool.Represents mem count count (head :: rest) tail out) :
    ∃ next, pool.take_block mem = ok (head, next) ∧
      next.Represents mem count count rest tail (head :: out) ∧
      next.m_buffer = pool.m_buffer ∧ next.m_block_size = pool.m_block_size ∧
      next.m_sem = pool.m_sem := by
  obtain ⟨hhead, hchain⟩ := h.chain
  have hnull : pool.m_free_list ≠ nullptr := by
    have hmem : head ∈ (List.range count).map pool.block := h.owned.subset (by simp)
    obtain ⟨index, _, heq⟩ := List.mem_map.mp hmem
    rw [hhead, ← heq]
    exact h.block_ne_nullptr index
  refine ⟨{ pool with m_free_list := mem head }, ?_,
    ⟨h.buffer, h.block_size, h.extent, h.allocated, h.used_le, hchain, ?_⟩, rfl, rfl, rfl⟩
  · rw [take_block, if_neg (not_not_intro (h.allocated_eq_iff.mpr rfl)), if_neg hnull, hhead]
  · exact List.perm_middle.trans h.owned

/-- What a section leaves in a free list of the blocks `free`. -/
def freeAfterTake (pool : FixedMemoryPool) (free : List Addr) : List Addr :=
  if pool.m_allocated_buffer_size = pool.m_buffer_size then free.tail else free

/-- A section finds a block as long as fewer than `count` are out. -/
theorem Represents.take_block_spec (h : pool.Represents mem count used free tail out)
    (hroom : out.length < count) :
    ∃ block next nextUsed, pool.take_block mem = ok (block, next) ∧
      next.Represents mem count nextUsed (pool.freeAfterTake free) tail (block :: out) ∧
      next.m_buffer = pool.m_buffer ∧ next.m_block_size = pool.m_block_size ∧
      next.m_sem = pool.m_sem := by
  have hlength := h.length_eq
  by_cases hfresh : used < count
  · have hne : ¬ pool.m_allocated_buffer_size = pool.m_buffer_size :=
      fun heq => hfresh.ne (h.allocated_eq_iff.mp heq)
    obtain ⟨next, htake, hnext⟩ := h.take_fresh hfresh
    refine ⟨pool.block used, next, used + 1, htake, ?_⟩
    rwa [freeAfterTake, if_neg hne]
  · obtain rfl : used = count := Nat.le_antisymm h.used_le (by omega)
    cases free with
    | nil =>
      simp only [List.length_nil] at hlength
      omega
    | cons head rest =>
      obtain ⟨next, htake, hnext⟩ := h.take_free
      refine ⟨head, next, used, htake, ?_⟩
      rwa [freeAfterTake, if_pos (h.allocated_eq_iff.mpr rfl)]

theorem Represents.put_block {block : Addr} {rest : List Addr}
    (h : pool.Represents mem count used free tail (block :: rest)) :
    (pool.put_block mem block).1.Represents (pool.put_block mem block).2 count used
      (block :: free) tail rest := by
  have hfree : block ∉ free := by
    have hnodup := h.nodup
    rw [List.nodup_append] at hnodup
    intro hmem
    exact hnodup.2.2 block hmem block (by simp) rfl
  exact ⟨h.buffer, h.block_size, h.extent, h.allocated, h.used_le, h.chain.push hfree,
    List.perm_middle.symm.trans h.owned⟩

/-- A release with room in the semaphore gives token and block back, and
writes no word but the link of the block. -/
theorem Represents.release_ok [Itron] {block : Addr} {rest : List Addr}
    (h : pool.Represents mem count used free tail (block :: rest))
    (hhandle : pool.m_sem.m_handle ≠ kInvalidSemaphoreHandle)
    (htoken : pool.m_sem.semcnt < pool.m_sem.maxsem) :
    ∃ next nextMem, pool.release mem block = ok (kOk, next, nextMem) ∧
      next.Represents nextMem count used (block :: free) tail rest ∧
      next.m_sem = { pool.m_sem with semcnt := pool.m_sem.semcnt + 1 } ∧
      next.m_buffer = pool.m_buffer ∧ next.m_block_size = pool.m_block_size ∧
      ∃ link, nextMem = Function.update mem block link := by
  have hput := (h.set_sem { pool.m_sem with semcnt := pool.m_sem.semcnt + 1 }).put_block
  refine ⟨_, _, ?_, hput, rfl, rfl, rfl, _, rfl⟩
  simp [release, h.buffer, Semaphore.release_of_room hhandle htoken]

theorem release_refused [Itron] {block : Addr} (hbuffer : pool.m_buffer ≠ nullptr)
    (hhandle : pool.m_sem.m_handle ≠ kInvalidSemaphoreHandle)
    (hfull : pool.m_sem.semcnt = pool.m_sem.maxsem) :
    pool.release mem block = ok (kEUnknown, pool, mem) := by
  have hfailed : is_failed kEUnknown = true := by decide
  simp [release, hbuffer, Semaphore.release_of_full hhandle hfull, hfailed]

/-- The blocks from `m_allocated_buffer_size` to the end of the buffer. -/
def fresh (pool : FixedMemoryPool) : List Addr :=
  ((List.range (pool.m_buffer_size.toNat / pool.m_block_size.toNat)).drop
    (pool.m_allocated_buffer_size.toNat / pool.m_block_size.toNat)).map pool.block

theorem Represents.fresh_eq (h : pool.Represents mem count used free tail out) :
    pool.fresh = ((List.range count).drop used).map pool.block := by
  rw [fresh, h.extent, h.allocated, Nat.mul_div_cancel_left _ h.block_size,
    Nat.mul_div_cancel_left _ h.block_size]

/-- Every block of the buffer is exactly one of never used, free and out. -/
theorem Represents.partition (h : pool.Represents mem count used free tail out) :
    (pool.fresh ++ (free ++ out)).Perm ((List.range count).map pool.block) := by
  have htake : (List.range count).take used = List.range used := by
    rw [List.take_range, Nat.min_eq_left h.used_le]
  have hsplit := congrArg (List.map pool.block) (List.take_append_drop used (List.range count))
  rw [List.map_append, htake, ← h.fresh_eq] at hsplit
  rw [← hsplit]
  exact List.perm_append_comm.trans (h.owned.append_right _)

/-- When a block is out that is not counted, the pool and the counted blocks
no longer make up the buffer. -/
theorem Represents.not_partition {block : Addr}
    (h : pool.Represents mem count used free nullptr (block :: out)) :
    ¬ ∃ chained, Segment mem pool.m_free_list chained nullptr ∧
      (pool.fresh ++ (chained ++ out)).Perm ((List.range count).map pool.block) := by
  rintro ⟨chained, hchain, hperm⟩
  have hnull : nullptr ∉ (List.range count).map pool.block := by
    intro hmem
    obtain ⟨index, _, heq⟩ := List.mem_map.mp hmem
    exact h.block_ne_nullptr index heq
  have hfree : nullptr ∉ free := fun hmem => hnull (h.partition.subset (by simp [hmem]))
  have hchained : nullptr ∉ chained := fun hmem => hnull (hperm.subset (by simp [hmem]))
  obtain rfl := hchain.unique h.chain hchained hfree
  have hall := h.partition.length_eq
  have hcounted := hperm.length_eq
  simp only [List.length_append, List.length_cons] at hall hcounted
  omega

/-- `get_isr` hands out a block and adds a token while fewer than `count`
blocks are out and the semaphore has room. -/
theorem Represents.get_isr_ok [Itron] (h : pool.Represents mem count used free tail out)
    (hhandle : pool.m_sem.m_handle ≠ kInvalidSemaphoreHandle)
    (htoken : pool.m_sem.semcnt < pool.m_sem.maxsem) (hroom : out.length < count) :
    ∃ block next nextUsed, pool.get_isr mem = ok (kOk, some block, next) ∧
      next.Represents mem count nextUsed (pool.freeAfterTake free) tail (block :: out) ∧
      next.m_sem = { pool.m_sem with semcnt := pool.m_sem.semcnt + 1 } := by
  obtain ⟨block, next, nextUsed, htake, hnext, _, _, hsem⟩ :=
    (h.set_sem { pool.m_sem with semcnt := pool.m_sem.semcnt + 1 }).take_block_spec hroom
  refine ⟨block, next, nextUsed, ?_, hnext, hsem⟩
  simp [get_isr, Semaphore.release_isr, h.buffer, Semaphore.release_of_room hhandle htoken, htake]

/-- With every block out, `get_isr` still gets past the semaphore and follows
a null free list. -/
theorem Represents.get_isr_exhausted [Itron] (h : pool.Represents mem count used free nullptr out)
    (hhandle : pool.m_sem.m_handle ≠ kInvalidSemaphoreHandle)
    (htoken : pool.m_sem.semcnt < pool.m_sem.maxsem) (hfull : out.length = count) :
    pool.get_isr mem = fail .invalid_access := by
  have hlength := h.length_eq
  have hused := h.used_le
  obtain rfl : used = count := by omega
  obtain rfl : free = [] := List.eq_nil_of_length_eq_zero (by omega)
  have hallocated := h.allocated_eq_iff.mpr rfl
  have hnull : pool.m_free_list = nullptr := h.chain
  simp [get_isr, Semaphore.release_isr, h.buffer, Semaphore.release_of_room hhandle htoken, take_block,
    hallocated, hnull]

/-- With the semaphore at its maximum, `get_isr` is refused. -/
theorem get_isr_refused [Itron] (hbuffer : pool.m_buffer ≠ nullptr)
    (hhandle : pool.m_sem.m_handle ≠ kInvalidSemaphoreHandle)
    (hfull : pool.m_sem.semcnt = pool.m_sem.maxsem) :
    pool.get_isr mem = ok (kEUnknown, none, pool) := by
  have hfailed : is_failed kEUnknown = true := by decide
  simp [get_isr, Semaphore.release_isr, hbuffer, Semaphore.release_of_full hhandle hfull, hfailed]

end kfw.rtos.FixedMemoryPool
