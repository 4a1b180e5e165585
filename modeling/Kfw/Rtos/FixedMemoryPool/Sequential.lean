import Kfw.Rtos.FixedMemoryPool.Represents
import Kfw.Lib.Run

open exec Result

namespace kfw.rtos

/-- The arguments of a `create` and the buffer it was given. -/
structure Creation where
  block_size : UInt32
  block_count : UInt32
  buffer : Addr
  deriving DecidableEq

/-- A pool and its callers: the word at each address, the blocks that were got
since the latest `create` and not released, and that `create` itself. -/
structure PoolUse where
  pool : FixedMemoryPool := {}
  mem : Addr → Addr
  held : List Addr := []
  created : Option Creation := none

/-- The calls on a pool, one at a time, and the stores of the code around it. -/
inductive PoolCall where
  | create (block_size block_count : UInt32) (buffer : Addr) (er_id : Int)
  | dispose
  | get (timeout_ms : Int)
  | get_isr
  | release (block : Addr)
  | store (addr word : Addr)

namespace PoolUse

/-- Who holds which block after a get has returned. -/
def granted (self : PoolUse) (block : Option Addr) (pool : FixedMemoryPool) : PoolUse :=
  { self with pool, held := block.toList ++ self.held }

def step [Itron] (self : PoolUse) : PoolCall → Exec PoolUse
  | .create block_size block_count buffer er_id => do
    let (r, pool) ← self.pool.create block_size block_count buffer er_id
    if is_failed r then ok { self with pool }
    else ok { self with pool, held := [], created := some ⟨block_size, block_count, buffer⟩ }
  | .dispose => ok { self with pool := self.pool.dispose, created := none }
  | .get timeout_ms => do
    let (_, block, pool) ← self.pool.get self.mem timeout_ms
    ok (self.granted block pool)
  | .get_isr => do
    let (_, block, pool) ← self.pool.get_isr self.mem
    ok (self.granted block pool)
  | .release block => do
    let (r, pool, mem) ← self.pool.release self.mem block
    if is_failed r then ok { self with pool, mem }
    else ok { self with pool, mem, held := self.held.erase block }
  | .store addr word => ok { self with mem := Function.update self.mem addr word }

/-- What the callers keep to: a pool is created with blocks that can hold a
link word and a size that fits, its memory and semaphore being granted; only
held blocks are released; and nobody writes into the buffer except to blocks
it holds. -/
def Contract (self : PoolUse) : PoolCall → Prop
  | .create block_size block_count buffer er_id =>
    FixedMemoryPool.CreateContract block_size block_count buffer er_id
  | .release block => block ∈ self.held
  | .store addr _ =>
    addr ∈ self.held ∨ self.pool.m_buffer = nullptr ∨ addr < self.pool.m_buffer ∨
      self.pool.m_buffer + self.pool.m_buffer_size.toNat ≤ addr
  | _ => True

/-- A created pool: its fields represent the blocks, and every block that is
not out has its token in the semaphore. -/
structure Created (state : PoolUse) (creation : Creation) : Prop where
  created : state.created = some creation
  buffer : state.pool.m_buffer = creation.buffer
  block_size : state.pool.m_block_size = creation.block_size
  represents : ∃ used free tail,
    state.pool.Represents state.mem creation.block_count.toNat used free tail state.held
  handle : state.pool.m_sem.m_handle ≠ kInvalidSemaphoreHandle
  maxsem : state.pool.m_sem.maxsem = 2 ^ 32 - 1
  tokens : state.pool.m_sem.semcnt + state.held.length = creation.block_count.toNat

structure Uncreated (state : PoolUse) : Prop where
  created : state.created = none
  pool : state.pool.Uncreated

variable {state : PoolUse} {creation : Creation}

theorem Created.held_le (h : state.Created creation) :
    state.held.length ≤ creation.block_count.toNat := by
  have htokens := h.tokens
  omega

theorem Created.buffer_ne (h : state.Created creation) : state.pool.m_buffer ≠ nullptr := by
  obtain ⟨used, free, tail, hrep⟩ := h.represents
  exact hrep.buffer

/-- With a block left, `get` returns one that nobody holds and takes its token. -/
theorem Created.get_of_room [Itron] (h : state.Created creation)
    (hroom : state.held.length < creation.block_count.toNat) (timeout_ms : Int) :
    ∃ block pool, state.pool.get state.mem timeout_ms = ok (kOk, some block, pool) ∧
      (state.granted (some block) pool).Created creation := by
  have htokens := h.tokens
  obtain ⟨used, free, tail, hrep⟩ := h.represents
  have hwait := Semaphore.wait_of_token h.handle (by omega : 0 < state.pool.m_sem.semcnt) timeout_ms
  obtain ⟨block, pool, nextUsed, htake, hnext, hbuffer, hsize, hsem⟩ :=
    (hrep.set_sem { state.pool.m_sem with semcnt := state.pool.m_sem.semcnt - 1 }).take_block_spec hroom
  refine ⟨block, pool, ?_, ?_⟩
  · simp [FixedMemoryPool.get, h.buffer_ne, hwait, htake]
  · refine ⟨h.created, hbuffer.trans h.buffer, hsize.trans h.block_size, ⟨nextUsed, _, tail, hnext⟩, ?_, ?_, ?_⟩
    · simpa [granted, hsem] using h.handle
    · simpa [granted, hsem] using h.maxsem
    · simp only [granted, hsem, Option.toList_some, List.length_append, List.length_singleton]
      omega

/-- With every block out, `get` does not return one: it waits for ever, or fails and leaves the
pool as it is. -/
theorem Created.get_of_full [Itron] (h : state.Created creation)
    (hfull : state.held.length = creation.block_count.toNat) (timeout_ms : Int) :
    state.pool.get state.mem timeout_ms = div ∨
      ∃ r, state.pool.get state.mem timeout_ms = ok (r, none, state.pool) := by
  have htokens := h.tokens
  have hempty : state.pool.m_sem.semcnt = 0 := by omega
  rw [FixedMemoryPool.get, if_neg h.buffer_ne]
  by_cases htmo : timeout_ms = TMO_FEVR
  · exact .inl (by rw [htmo, Semaphore.wait_forever h.handle hempty, bind_div])
  · obtain ⟨r, hfailed, hwait⟩ := Semaphore.wait_of_empty h.handle hempty htmo
    exact .inr ⟨r, by simp [hwait, hfailed]⟩

theorem Created.release_held [Itron] (h : state.Created creation) {block : Addr} (hblock : block ∈ state.held) :
    ∃ pool mem, state.pool.release state.mem block = ok (kOk, pool, mem) ∧
      ({ state with pool, mem, held := state.held.erase block } : PoolUse).Created creation := by
  have htokens := h.tokens
  have hlength := List.length_erase_of_mem hblock
  have hpos := List.length_pos_of_mem hblock
  have hcount := creation.block_count.toNat_lt
  obtain ⟨used, free, tail, hrep⟩ := h.represents
  have hroom : state.pool.m_sem.semcnt < state.pool.m_sem.maxsem := by
    rw [h.maxsem]
    omega
  obtain ⟨pool, mem, hrelease, hnext, hsem, hbuffer, hsize, _⟩ :=
    (hrep.perm (List.perm_cons_erase hblock).symm).release_ok h.handle hroom
  refine ⟨pool, mem, hrelease, ⟨h.created, hbuffer.trans h.buffer, hsize.trans h.block_size,
    ⟨used, _, tail, hnext⟩, ?_, ?_, ?_⟩⟩
  · simpa only [hsem] using h.handle
  · simpa only [hsem] using h.maxsem
  · simp only [hsem, hlength]
    omega

/-- A block in the free list lies in the buffer and is not held, so no store
of the callers reaches its link. -/
theorem Created.store (h : state.Created creation) {addr word : Addr}
    (hcontract : state.Contract (.store addr word)) :
    ({ state with mem := Function.update state.mem addr word } : PoolUse).Created creation := by
  obtain ⟨used, free, tail, hrep⟩ := h.represents
  have haddr : addr ∉ free := by
    intro hmem
    have hblock : addr ∈ (List.range used).map state.pool.block :=
      hrep.owned.subset (List.mem_append_left _ hmem)
    obtain ⟨index, hindex, heq⟩ := List.mem_map.mp hblock
    have hused := (List.mem_range.mp hindex).trans_le hrep.used_le
    have hextent := Nat.mul_lt_mul_of_pos_left hused hrep.block_size
    rw [← hrep.extent] at hextent
    have haddr : addr = state.pool.m_buffer + state.pool.m_block_size.toNat * index := heq.symm
    rcases hcontract with hheld | hnull | hbelow | habove
    · have hnodup := hrep.nodup
      rw [List.nodup_append] at hnodup
      exact hnodup.2.2 addr hmem addr hheld rfl
    · exact hrep.buffer hnull
    · exact absurd hbelow (by rw [haddr]; exact Nat.not_lt.mpr (Nat.le_add_right _ _))
    · rw [haddr] at habove
      exact absurd (Nat.le_of_add_le_add_left habove) (Nat.not_le.mpr hextent)
  exact ⟨h.created, h.buffer, h.block_size, ⟨used, free, tail, hrep.write haddr word⟩, h.handle,
    h.maxsem, h.tokens⟩

/-- A pool whose size fits is created with all its blocks. -/
theorem created_of_fits (state : PoolUse) (h : state.pool.Uncreated) {block_size block_count : UInt32}
    {buffer : Addr} {er_id : Int} (hsize : 0 < block_size.toNat) (hfits : block_size.toNat * block_count.toNat < 2 ^ 32)
    (hmemory : buffer ≠ nullptr) (hid : 0 < er_id) :
    ∃ pool, state.pool.create block_size block_count buffer er_id = ok (kOk, pool) ∧
      ({ state with pool, held := [], created := some ⟨block_size, block_count, buffer⟩ } :
        PoolUse).Created ⟨block_size, block_count, buffer⟩ := by
  obtain ⟨pool, hcreate, hrep, hbuffer, hblock, hsem⟩ := h.create_of_fits hsize hfits hmemory hid state.mem
  refine ⟨pool, hcreate, ⟨rfl, hbuffer, hblock, ⟨0, [], _, hrep⟩, ?_, ?_, ?_⟩⟩
  · simp only [hsem, kInvalidSemaphoreHandle]
    omega
  · simp only [hsem]
  · simp only [hsem, List.length_nil, Nat.add_zero]

theorem Uncreated.create (h : state.Uncreated) {block_size block_count : UInt32} {buffer : Addr}
    {er_id : Int} (hcontract : state.Contract (.create block_size block_count buffer er_id)) :
    ∃ pool, state.pool.create block_size block_count buffer er_id = ok (kOk, pool) ∧
      ({ state with pool, held := [], created := some ⟨block_size, block_count, buffer⟩ } :
        PoolUse).Created ⟨block_size, block_count, buffer⟩ :=
  created_of_fits state h.pool hcontract.block_size hcontract.fits hcontract.memory hcontract.id

theorem Created.dispose (h : state.Created creation) :
    ({ state with pool := state.pool.dispose, created := none } : PoolUse).Uncreated := by
  refine ⟨rfl, ?_, ?_⟩
  · simp [FixedMemoryPool.dispose, h.buffer_ne]
  · simp [FixedMemoryPool.dispose, h.buffer_ne, Semaphore.dispose, h.handle]

/-- The states of a pool over any number of lives. -/
def Valid (state : PoolUse) : Prop :=
  state.Uncreated ∨ ∃ creation, state.Created creation

/-- The contract for a pool that stays created: no further `create` or `dispose`. -/
def UseContract (state : PoolUse) : PoolCall → Prop
  | .create .. => False
  | .dispose => False
  | call => state.Contract call

/-- The calls that follow the contract and do not come from an interrupt. -/
def TaskContract (state : PoolUse) (call : PoolCall) : Prop :=
  call ≠ .get_isr ∧ state.Contract call

/-- Off a created pool no call but `create` has an effect. -/
theorem Uncreated.step_valid [Itron] (h : state.Uncreated) {call : PoolCall} {next : PoolUse}
    (hcontract : state.TaskContract call) (hstep : state.step call = ok next) : next.Valid := by
  have hfailed : is_failed kEInvalidOperation = true := by decide
  cases call with
  | create block_size block_count buffer er_id =>
    obtain ⟨pool, hcreate, hcreated⟩ := h.create hcontract.2
    simp only [step, hcreate, bind_ok, is_failed_kOk, Bool.false_eq_true, if_false, ok.injEq] at hstep
    subst next
    exact .inr ⟨_, hcreated⟩
  | dispose =>
    simp only [step, FixedMemoryPool.dispose, h.pool.buffer, if_true, ok.injEq] at hstep
    subst next
    exact .inl ⟨rfl, h.pool⟩
  | get timeout_ms =>
    simp only [step, FixedMemoryPool.get, h.pool.buffer, if_true, bind_ok, ok.injEq] at hstep
    subst next
    exact .inl ⟨h.created, h.pool⟩
  | get_isr => exact absurd rfl hcontract.1
  | release block =>
    simp only [step, FixedMemoryPool.release, h.pool.buffer, if_true, bind_ok, hfailed, ok.injEq] at hstep
    subst next
    exact .inl ⟨h.created, h.pool⟩
  | store addr word =>
    simp only [step, ok.injEq] at hstep
    subst next
    exact .inl ⟨h.created, h.pool⟩

/-- Gets, releases and stores keep a created pool created. -/
theorem Created.step_created [Itron] (h : state.Created creation) {call : PoolCall} {next : PoolUse}
    (hcontract : state.UseContract call) (htask : call ≠ .get_isr)
    (hstep : state.step call = ok next) : next.Created creation := by
  cases call with
  | create block_size block_count buffer er_id => exact hcontract.elim
  | dispose => exact hcontract.elim
  | get timeout_ms =>
    rcases Nat.lt_or_eq_of_le h.held_le with hroom | hfull
    · obtain ⟨block, pool, hget, hnext⟩ := h.get_of_room hroom timeout_ms
      simp only [step, hget, bind_ok, ok.injEq] at hstep
      subst next
      exact hnext
    · rcases h.get_of_full hfull timeout_ms with hdiv | ⟨r, hget⟩
      · simp [step, hdiv] at hstep
      · simp only [step, hget, bind_ok, ok.injEq] at hstep
        subst next
        exact h
  | get_isr => exact absurd rfl htask
  | release block =>
    obtain ⟨pool, mem, hrelease, hnext⟩ := h.release_held hcontract
    simp only [step, hrelease, bind_ok, is_failed_kOk, Bool.false_eq_true, if_false, ok.injEq] at hstep
    subst next
    exact hnext
  | store addr word =>
    simp only [step, ok.injEq] at hstep
    subst next
    exact h.store hcontract

theorem Created.step_valid [Itron] (h : state.Created creation) {call : PoolCall} {next : PoolUse}
    (hcontract : state.TaskContract call) (hstep : state.step call = ok next) : next.Valid := by
  cases call with
  | create block_size block_count buffer er_id =>
    have hfailed : is_failed kEInvalidOperation = true := by decide
    simp only [step, FixedMemoryPool.create, ne_eq, h.buffer_ne, not_false_eq_true, if_true, bind_ok,
      hfailed, ok.injEq] at hstep
    subst next
    exact .inr ⟨creation, h⟩
  | dispose =>
    simp only [step, ok.injEq] at hstep
    subst next
    exact .inl h.dispose
  | get_isr => exact absurd rfl hcontract.1
  | get | release | store =>
    refine .inr ⟨creation, h.step_created ?_ hcontract.1 hstep⟩
    exact hcontract.2

/-- Every state a pool reaches under calls that keep the contract is valid,
over any number of creations and disposals. -/
theorem run_valid [Itron] {mem : Addr → Addr} {calls : List PoolCall} {last : PoolUse}
    (hcalls : Along step TaskContract { mem } calls) (hrun : steps step { mem } calls = ok last) :
    last.Valid := by
  refine Along.invariant Valid ?_ (.inl ⟨rfl, rfl, rfl⟩) hcalls hrun
  intro state call next hvalid hcontract hstep
  rcases hvalid with huncreated | ⟨creation, hcreated⟩
  · exact huncreated.step_valid hcontract hstep
  · exact hcreated.step_valid hcontract hstep

/-- In any sequence of creations, gets, releases and disposals, a successful
get returns one of the `block_count` blocks of the buffer of the latest
creation, and never one that is held; and a get succeeds exactly when the pool
is created and fewer than `block_count` blocks are held. The free list that
disposal and creation leave uncleared is never followed. -/
theorem get_in_latest_buffer [Itron] (mem : Addr → Addr) (calls : List PoolCall) (last : PoolUse)
    (hcalls : Along step TaskContract { mem } calls) (hrun : steps step { mem } calls = ok last)
    (timeout_ms : Int) :
    (∀ r block pool, last.pool.get last.mem timeout_ms = ok (r, some block, pool) →
      ∃ creation, last.created = some creation ∧
        (∃ index < creation.block_count.toNat,
          block = creation.buffer + creation.block_size.toNat * index) ∧
        block ∉ last.held) ∧
    ((∃ block pool, last.pool.get last.mem timeout_ms = ok (kOk, some block, pool)) ↔
      ∃ creation, last.created = some creation ∧
        last.held.length < creation.block_count.toNat) := by
  rcases run_valid hcalls hrun with huncreated | ⟨creation, hcreated⟩
  · simp [FixedMemoryPool.get, huncreated.pool.buffer, huncreated.created]
  · rcases Nat.lt_or_eq_of_le hcreated.held_le with hroom | hfull
    · obtain ⟨block, pool, hget, hnext⟩ := hcreated.get_of_room hroom timeout_ms
      refine ⟨?_, ?_⟩
      · intro r other otherPool heq
        rw [hget, ok.injEq] at heq
        obtain ⟨-, rfl, rfl⟩ : kOk = r ∧ block = other ∧ pool = otherPool := by simpa using heq
        obtain ⟨used, free, tail, hrep⟩ := hnext.represents
        obtain ⟨index, hindex, hblock⟩ := hrep.mem_out (List.mem_cons_self : block ∈ block :: last.held)
        refine ⟨creation, hcreated.created, ⟨index, hindex, ?_⟩, ?_⟩
        · rw [hblock, FixedMemoryPool.block, hnext.buffer, hnext.block_size]
        · exact (List.nodup_cons.mp (List.nodup_append.mp hrep.nodup).2.1).1
      · exact ⟨fun _ => ⟨creation, hcreated.created, hroom⟩, fun _ => ⟨block, pool, hget⟩⟩
    · rcases hcreated.get_of_full hfull timeout_ms with hget | ⟨r, hget⟩
      · simp [hget, hcreated.created, hfull]
      · simp [hget, hcreated.created, hfull]

/-- A one-block pool that is disposed with its block in the free list and
created again elsewhere: the next get returns the block of the new buffer. -/
theorem get_in_latest_buffer_recreated :
    ∃ last, steps step { mem := fun _ => nullptr }
        [.create 8 1 64 1, .get TMO_FEVR, .release 64, .dispose, .create 8 1 96 2] = ok last ∧
      last.pool.m_free_list = 64 ∧
      ∃ block pool, last.pool.get last.mem 0 = ok (kOk, some block, pool) ∧
        (∃ index < 1, block = 96 + 8 * index) ∧ block ∉ last.held := by
  have hcalls : Along step TaskContract { mem := fun _ => nullptr }
      [.create 8 1 64 1, .get TMO_FEVR, .release 64, .dispose, .create 8 1 96 2] := by
    refine ⟨⟨nofun, by decide, by decide, by decide, by decide⟩, ?_⟩
    rintro _ ⟨⟩
    refine ⟨by simp [TaskContract, Contract], ?_⟩
    rintro _ ⟨⟩
    refine ⟨by simp [TaskContract, Contract, granted, nullptr], ?_⟩
    rintro _ ⟨⟩
    refine ⟨by simp [TaskContract, Contract], ?_⟩
    rintro _ ⟨⟩
    exact ⟨⟨nofun, by decide, by decide, by decide, by decide⟩, fun _ _ => trivial⟩
  obtain ⟨hblock, hsucceeds⟩ := get_in_latest_buffer _ _ _ hcalls rfl 0
  obtain ⟨block, pool, hget⟩ := hsucceeds.mpr ⟨_, rfl, by decide⟩
  obtain ⟨creation, hcreation, hindex, hheld⟩ := hblock kOk block pool hget
  cases hcreation
  exact ⟨_, rfl, rfl, block, pool, hget, hindex, hheld⟩

end PoolUse

end kfw.rtos
