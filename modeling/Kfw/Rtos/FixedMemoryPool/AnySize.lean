import Kfw.Rtos.FixedMemoryPool.Sequential

open exec Result

namespace kfw.rtos

/-- Blocks of `block_size` bytes in the `size` bytes from `buffer` on, none of which overlap. -/
structure Apart (buffer size block_size : Nat) (blocks : List Nat) : Prop where
  inside : ∀ block ∈ blocks, buffer ≤ block ∧ block + block_size ≤ buffer + size
  apart : blocks.Pairwise fun first second => first + block_size ≤ second ∨ second + block_size ≤ first

/-- Blocks that do not overlap take no more room than there is. -/
theorem Apart.length_mul_le {buffer size block_size : Nat} {blocks : List Nat}
    (h : Apart buffer size block_size blocks) : blocks.length * block_size ≤ size := by
  have hnodup : (blocks.flatMap fun block => List.range' block block_size).Nodup := by
    rw [List.nodup_flatMap]
    refine ⟨fun block _ => List.nodup_range', h.apart.imp ?_⟩
    intro first second hdisjoint byte hfirst hsecond
    rw [List.mem_range'_1] at hfirst hsecond
    omega
  have hsubset : (blocks.flatMap fun block => List.range' block block_size) ⊆ List.range' buffer size := by
    intro byte hbyte
    obtain ⟨block, hblock, hmem⟩ := List.mem_flatMap.mp hbyte
    obtain ⟨hlow, hhigh⟩ := h.inside block hblock
    rw [List.mem_range'_1] at hmem ⊢
    omega
  have hlength := (List.subperm_of_subset hnodup hsubset).length_le
  simpa [List.length_flatMap] using hlength

namespace PoolUse

variable {state : PoolUse} {creation : Creation}

/-- The held blocks of a created pool lie apart. -/
theorem Created.apart (h : state.Created creation) :
    Apart creation.buffer (creation.block_size.toNat * creation.block_count.toNat) creation.block_size.toNat
      state.held := by
  obtain ⟨used, free, tail, hrep⟩ := h.represents
  have hnodup : state.held.Nodup := (List.nodup_append.mp hrep.nodup).2.1
  have hblock : ∀ block ∈ state.held, ∃ index < creation.block_count.toNat,
      block = creation.buffer + creation.block_size.toNat * index := by
    intro block hheld
    obtain ⟨index, hindex, heq⟩ := hrep.mem_out hheld
    rw [FixedMemoryPool.block, h.buffer, h.block_size] at heq
    exact ⟨index, hindex, heq⟩
  have hafter : ∀ {first second : Nat}, first < second →
      creation.block_size.toNat * first + creation.block_size.toNat ≤ creation.block_size.toNat * second := by
    intro first second hlt
    rw [← Nat.mul_add_one]
    exact Nat.mul_le_mul_left _ hlt
  constructor
  · intro block hheld
    obtain ⟨index, hindex, rfl⟩ := hblock block hheld
    have hend := hafter hindex
    omega
  · apply hnodup.pairwise_of_forall_ne
    intro first hfirst second hsecond hne
    obtain ⟨i, _, rfl⟩ := hblock first hfirst
    obtain ⟨j, _, rfl⟩ := hblock second hsecond
    rcases Nat.lt_trichotomy i j with hlt | heq | hgt
    · have hbefore := hafter hlt
      omega
    · exact absurd (by rw [heq]) hne
    · have hbehind := hafter hgt
      omega

/-- As long as blocks are left, every get gives one. -/
theorem Created.gets [Itron] (h : state.Created creation) (timeout_ms : Int) (count : Nat)
    (hroom : state.held.length + count ≤ creation.block_count.toNat) :
    ∃ last, steps step state (List.replicate count (.get timeout_ms)) = ok last ∧ last.Created creation ∧
      last.held.length = state.held.length + count := by
  induction count generalizing state with
  | zero => exact ⟨state, rfl, h, rfl⟩
  | succ count ih =>
    obtain ⟨block, pool, hget, hnext⟩ := h.get_of_room (by omega) timeout_ms
    have hheld : (state.granted (some block) pool).held.length = state.held.length + 1 := by
      simp [granted]
    obtain ⟨last, hsteps, hlast, hlength⟩ := ih hnext (by omega)
    refine ⟨last, ?_, hlast, by omega⟩
    rw [List.replicate_succ, steps, step, hget]
    exact hsteps

/-- Without a buffer every get fails, and changes nothing. -/
theorem gets_without_buffer [Itron] (hbuffer : state.pool.m_buffer = nullptr) (timeout_ms : Int) (count : Nat) :
    steps step state (List.replicate count (.get timeout_ms)) = ok state := by
  induction count with
  | zero => rfl
  | succ count ih =>
    have hstep : state.step (.get timeout_ms) = ok state := by
      simp [step, FixedMemoryPool.get, hbuffer, granted]
    rw [List.replicate_succ, steps, hstep]
    exact ih

end PoolUse

namespace FixedMemoryPool

/-- Creating a pool fails and leaves it uncreated, or gives one from which `block_count`
blocks can be got that lie apart in the allocated buffer. -/
def CreatesBlocks [Itron] (block_size block_count : UInt32) (buffer : Addr) (er_id : Int) : Prop :=
  ∀ (before : FixedMemoryPool) (mem : Addr → Addr) (timeout_ms : Int), before.Uncreated →
    (∃ r pool, before.create block_size block_count buffer er_id = ok (r, pool) ∧ is_failed r = true ∧
      pool.Uncreated) ∨
    ∃ pool last, before.create block_size block_count buffer er_id = ok (kOk, pool) ∧
      steps PoolUse.step { pool, mem, created := some ⟨block_size, block_count, buffer⟩ }
        (List.replicate block_count.toNat (.get timeout_ms)) = ok last ∧
      last.held.length = block_count.toNat ∧
      Apart buffer (block_size * block_count).toNat block_size.toNat last.held

/-- What `create` needs to give the blocks. -/
structure Creatable (block_size block_count : UInt32) (buffer : Addr) (er_id : Int) : Prop where
  positive : 0 < block_size.toNat
  fits : block_size.toNat * block_count.toNat < 2 ^ 32
  memory : buffer ≠ nullptr
  id : 0 < er_id

variable {block_size block_count : UInt32} {buffer : Addr} {er_id : Int}

theorem Creatable.createsBlocks [Itron] (h : Creatable block_size block_count buffer er_id) :
    CreatesBlocks block_size block_count buffer er_id := by
  intro before mem timeout_ms hbefore
  right
  obtain ⟨pool, hcreate, hcreated⟩ :=
    PoolUse.created_of_fits { pool := before, mem } hbefore h.positive h.fits h.memory h.id
  obtain ⟨last, hsteps, hlast, hlength⟩ := hcreated.gets timeout_ms block_count.toNat (by simp)
  refine ⟨pool, last, hcreate, hsteps, by simpa using hlength, ?_⟩
  rw [UInt32.toNat_mul, Nat.mod_eq_of_lt h.fits]
  exact hlast.apart

/-- With no block nothing has to be given. -/
theorem createsBlocks_none [Itron] (hid : 0 ≤ er_id) : CreatesBlocks block_size 0 buffer er_id := by
  intro before mem timeout_ms hbefore
  right
  refine ⟨before.created block_size 0 buffer er_id, _, ?_, rfl, rfl, by simp, by simp⟩
  rw [hbefore.create_eq, if_neg (by omega)]

/-- The first get from a new pool does not come back if there is no semaphore, or no room. -/
theorem created_get_fails [Itron] (hmemory : buffer ≠ nullptr) (hcount : 0 < block_count.toNat)
    (hbad : er_id = 0 ∨ block_size = 0) (timeout_ms : Int) :
    ∃ error, (({} : FixedMemoryPool).created block_size block_count buffer er_id).get (fun _ => nullptr)
      timeout_ms = fail error := by
  by_cases hid : er_id = 0
  · exact ⟨.system_error kEDisposed, by simp [get, created, hmemory, Semaphore.wait, hid, kInvalidSemaphoreHandle]⟩
  · obtain rfl : block_size = 0 := hbad.resolve_left hid
    have hwait : ∀ maxsem, (⟨er_id, block_count.toNat, maxsem⟩ : Semaphore).wait timeout_ms =
        ok (kOk, ⟨er_id, block_count.toNat - 1, maxsem⟩) :=
      fun maxsem => Semaphore.wait_of_token hid hcount timeout_ms
    exact ⟨.invalid_access, by simp [get, created, hmemory, hwait, take_block]⟩

/-- What the promise means for a pool that was never created before. -/
theorem CreatesBlocks.gets [Itron] (h : CreatesBlocks block_size block_count buffer er_id) :
    0 ≤ er_id ∧ ∃ last, steps PoolUse.step {
        pool := ({} : FixedMemoryPool).created block_size block_count buffer er_id
        mem := fun _ => nullptr
        created := some ⟨block_size, block_count, buffer⟩ } (List.replicate block_count.toNat (.get 0)) = ok last ∧
      last.held.length = block_count.toNat ∧
      Apart buffer (block_size * block_count).toNat block_size.toNat last.held := by
  have hfresh : ({} : FixedMemoryPool).Uncreated := ⟨rfl, rfl⟩
  rcases h {} (fun _ => nullptr) 0 hfresh with ⟨r, pool, hcreate, hfailed, _⟩ | ⟨pool, last, hcreate, hlast⟩
  · rw [hfresh.create_eq] at hcreate
    split at hcreate
    · cases hcreate
    · cases hcreate
      cases hfailed
  · rw [hfresh.create_eq] at hcreate
    split at hcreate
    · cases hcreate
    · next hid =>
      cases hcreate
      exact ⟨Int.not_lt.mp hid, last, hlast⟩

theorem CreatesBlocks.creatable [Itron] (h : CreatesBlocks block_size block_count buffer er_id)
    (hcount : 0 < block_count.toNat) : Creatable block_size block_count buffer er_id := by
  obtain ⟨hid, last, hsteps, hlength, hapart⟩ := h.gets
  have hmemory : buffer ≠ nullptr := by
    rintro rfl
    rw [PoolUse.gets_without_buffer rfl] at hsteps
    cases hsteps
    exact hcount.ne hlength
  have hget : ¬ (er_id = 0 ∨ block_size = 0) := by
    intro hbad
    obtain ⟨error, hfails⟩ := created_get_fails hmemory hcount hbad 0
    obtain ⟨count, hsucc⟩ := Nat.exists_eq_succ_of_ne_zero hcount.ne.symm
    rw [hsucc, List.replicate_succ, steps, PoolUse.step, hfails] at hsteps
    cases hsteps
  refine ⟨?_, ?_, hmemory, by omega⟩
  · exact Nat.pos_of_ne_zero fun hzero => hget (.inr (UInt32.toNat_inj.mp hzero))
  · -- the blocks would take more room than was allocated
    have hroom := hapart.length_mul_le
    rw [hlength, Nat.mul_comm] at hroom
    exact Nat.lt_of_le_of_lt hroom (block_size * block_count).toNat_lt

/-- Creating a pool keeps its promise for no blocks, and if the blocks have bytes, all of them
together fit in 32 bits, and memory and semaphore are granted. -/
theorem createsBlocks_iff [Itron] (block_size block_count : UInt32) (buffer : Addr) (er_id : Int) :
    CreatesBlocks block_size block_count buffer er_id ↔
      0 ≤ er_id ∧ (block_count = 0 ∨ Creatable block_size block_count buffer er_id) := by
  constructor
  · intro hcreates
    refine ⟨hcreates.gets.1, ?_⟩
    by_cases hcount : block_count = 0
    · exact .inl hcount
    · exact .inr (hcreates.creatable (Nat.pos_of_ne_zero fun hzero => hcount (UInt32.toNat_inj.mp hzero)))
  · rintro ⟨hid, rfl | hcreatable⟩
    · exact createsBlocks_none hid
    · exact hcreatable.createsBlocks

/-- Two blocks of 2^31 bytes: the buffer has no byte, and the first get follows a null pointer. -/
theorem create_wrapped_size :
    ¬ CreatesBlocks 0x80000000 2 64 1 ∧
      ∃ pool, ({} : FixedMemoryPool).create 0x80000000 2 64 1 = ok (kOk, pool) ∧ pool.m_buffer_size = 0 ∧
        pool.get (fun _ => nullptr) 0 = fail .invalid_access := by
  refine ⟨fun hcreates => ?_, _, rfl, by decide, by decide⟩
  have hfits := (hcreates.creatable (by decide)).fits
  exact absurd hfits (by decide)

end FixedMemoryPool

end kfw.rtos
