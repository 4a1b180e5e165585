import Kfw.Rtos.FixedMemoryPool.Sequential

open exec Result

namespace kfw.rtos

/-- A created pool shared by tasks that can be preempted between the two steps
of a call. `getting` are the tasks whose `get` has its token but has not run
its section, `releasing` the tasks and blocks whose `release` has given its
token back but has not run its section. `free` names the blocks that sections
of `release` have put into the free list and no section of `get` has taken. -/
structure PoolTasks (Tid : Type) where
  pool : FixedMemoryPool
  mem : Addr → Addr
  free : List Addr := []
  held : List (Tid × Addr) := []
  getting : List Tid := []
  releasing : List (Tid × Addr) := []

/-- The steps of the tasks: the semaphore operation and the CPU-locked section
of each call, and stores into held blocks. -/
inductive TaskStep (Tid : Type) where
  | get_wait (task : Tid) (timeout_ms : Int)
  | get_section (task : Tid)
  | release_signal (task : Tid) (block : Addr)
  | release_section (task : Tid) (block : Addr)
  | store (task : Tid) (block word : Addr)

namespace PoolTasks

variable {Tid : Type}

def step [Itron] [DecidableEq Tid] (self : PoolTasks Tid) : TaskStep Tid → Exec (PoolTasks Tid)
  | .get_wait task timeout_ms =>
    if self.pool.m_buffer = nullptr then ok self
    else do
      let (r, sem) ← self.pool.m_sem.wait timeout_ms
      let self := { self with pool := { self.pool with m_sem := sem } }
      if is_failed r then ok self
      else ok { self with getting := task :: self.getting }
  | .get_section task => do
    let (block, pool) ← self.pool.take_block self.mem
    ok { self with
      pool
      free := self.pool.freeAfterTake self.free
      held := (task, block) :: self.held
      getting := self.getting.erase task }
  | .release_signal task block =>
    if self.pool.m_buffer = nullptr then ok self
    else do
      let (r, sem) ← self.pool.m_sem.release
      let self := { self with pool := { self.pool with m_sem := sem } }
      if is_failed r then ok self
      else ok { self with
        held := self.held.erase (task, block)
        releasing := (task, block) :: self.releasing }
  | .release_section task block =>
    let (pool, mem) := self.pool.put_block self.mem block
    ok { self with
      pool
      mem
      free := block :: self.free
      releasing := self.releasing.erase (task, block) }
  | .store _ block word => ok { self with mem := Function.update self.mem block word }

/-- The task is not between the two steps of a call. -/
def Idle (self : PoolTasks Tid) (task : Tid) : Prop :=
  task ∉ self.getting ∧ ∀ block, (task, block) ∉ self.releasing

/-- The steps the tasks can take: each is in at most one call, waits where
`m_sem.wait` blocks, and releases and writes only blocks it holds. -/
def Enabled (self : PoolTasks Tid) : TaskStep Tid → Prop
  | .get_wait task timeout_ms =>
    self.Idle task ∧ (0 < self.pool.m_sem.semcnt ∨ timeout_ms ≠ TMO_FEVR)
  | .get_section task => task ∈ self.getting
  | .release_signal task block => self.Idle task ∧ (task, block) ∈ self.held
  | .release_section task block => (task, block) ∈ self.releasing
  | .store task block _ => (task, block) ∈ self.held

/-- The fresh area is used up and the free list is empty. -/
def Exhausted (self : PoolTasks Tid) : Prop :=
  self.pool.m_allocated_buffer_size = self.pool.m_buffer_size ∧ self.free = []

/-- The section of a `get` is not run on an exhausted pool. -/
def NotOnEmpty (self : PoolTasks Tid) : TaskStep Tid → Prop
  | .get_section _ => ¬ self.Exhausted
  | _ => True

/-- The section of a `get` is run only while the tokens in the semaphore and
in the hands of getting tasks outnumber the releases that have given their
token back and not yet their block. -/
def TokenBacked (self : PoolTasks Tid) : TaskStep Tid → Prop
  | .get_section _ => self.releasing.length < self.pool.m_sem.semcnt + self.getting.length
  | _ => True

/-- The blocks that are with the callers. -/
def out (self : PoolTasks Tid) : List Addr :=
  self.held.map Prod.snd ++ self.releasing.map Prod.snd

/-- No block is with two callers at once. -/
def Exclusive (self : PoolTasks Tid) : Prop := self.out.Nodup

/-- The fields represent the blocks, and the tokens not in the semaphore are
with getting tasks and holders. -/
structure Consistent (count : Nat) (state : PoolTasks Tid) : Prop where
  represents : ∃ used tail, state.pool.Represents state.mem count used state.free tail state.out
  handle : state.pool.m_sem.m_handle ≠ kInvalidSemaphoreHandle
  maxsem : state.pool.m_sem.maxsem = 2 ^ 32 - 1
  count_lt : count < 2 ^ 32 - 1
  tokens : state.pool.m_sem.semcnt + state.getting.length + state.held.length = count

variable {count : Nat} {state : PoolTasks Tid}

@[simp] theorem length_out (state : PoolTasks Tid) :
    state.out.length = state.held.length + state.releasing.length := by
  simp [out]

theorem Consistent.exclusive (h : Consistent count state) : state.Exclusive := by
  obtain ⟨used, tail, hrep⟩ := h.represents
  exact (List.nodup_append.mp hrep.nodup).2.1

theorem Consistent.buffer_ne (h : Consistent count state) : state.pool.m_buffer ≠ nullptr := by
  obtain ⟨used, tail, hrep⟩ := h.represents
  exact hrep.buffer

/-- A pool is exhausted exactly when all its blocks are with the callers. -/
theorem Consistent.exhausted_iff (h : Consistent count state) :
    state.Exhausted ↔ state.held.length + state.releasing.length = count := by
  obtain ⟨used, tail, hrep⟩ := h.represents
  have hlength := hrep.length_eq
  have hused := hrep.used_le
  rw [length_out] at hlength
  rw [Exhausted, hrep.allocated_eq_iff]
  constructor
  · rintro ⟨rfl, hfree⟩
    simpa [hfree] using hlength
  · intro hall
    exact ⟨by omega, List.eq_nil_of_length_eq_zero (by omega)⟩

/-- The section of a `get` meets an exhausted pool exactly when no token backs it. -/
theorem Consistent.notOnEmpty_iff (h : Consistent count state) (action : TaskStep Tid) :
    state.NotOnEmpty action ↔ state.TokenBacked action := by
  cases action with
  | get_section task =>
    obtain ⟨used, tail, hrep⟩ := h.represents
    have hlength := hrep.length_eq
    have hused := hrep.used_le
    have htokens := h.tokens
    rw [length_out] at hlength
    simp only [NotOnEmpty, TokenBacked, h.exhausted_iff]
    omega
  | get_wait | release_signal | release_section | store => exact Iff.rfl

/-- A task gets a token, or fails and changes nothing. -/
theorem Consistent.get_wait [Itron] [DecidableEq Tid] (h : Consistent count state) {task : Tid} {timeout_ms : Int}
    {next : PoolTasks Tid} (henabled : state.Enabled (.get_wait task timeout_ms))
    (hstep : state.step (.get_wait task timeout_ms) = ok next) : Consistent count next := by
  obtain ⟨used, tail, hrep⟩ := h.represents
  have htokens := h.tokens
  by_cases hzero : state.pool.m_sem.semcnt = 0
  · have htmo : timeout_ms ≠ TMO_FEVR := henabled.2.resolve_left (by omega)
    obtain ⟨r, hfailed, hwait⟩ := Semaphore.wait_of_empty h.handle hzero htmo
    simp only [step, h.buffer_ne, hwait, if_false, bind_ok, hfailed, if_true, ok.injEq] at hstep
    subst next
    exact h
  · simp only [step, h.buffer_ne, Semaphore.wait_of_token h.handle (Nat.pos_of_ne_zero hzero),
      if_false, bind_ok, is_failed_kOk, Bool.false_eq_true, ok.injEq] at hstep
    subst next
    refine ⟨⟨used, tail, hrep.set_sem _⟩, h.handle, h.maxsem, h.count_lt, ?_⟩
    simp only [List.length_cons]
    omega

/-- A backed section hands out a block that is with nobody else. -/
theorem Consistent.get_section [Itron] [DecidableEq Tid] (h : Consistent count state) {task : Tid}
    {next : PoolTasks Tid} (henabled : state.Enabled (.get_section task))
    (hbacked : state.TokenBacked (.get_section task))
    (hstep : state.step (.get_section task) = ok next) : Consistent count next := by
  obtain ⟨used, tail, hrep⟩ := h.represents
  have htokens := h.tokens
  have hlength : (state.getting.erase task).length = state.getting.length - 1 :=
    List.length_erase_of_mem henabled
  have hpos := List.length_pos_of_mem henabled
  have hroom : state.out.length < count := by
    simp only [TokenBacked] at hbacked
    rw [length_out]
    omega
  obtain ⟨block, pool, nextUsed, htake, hnext, _, _, hsem⟩ := hrep.take_block_spec hroom
  simp only [step, htake, bind_ok, ok.injEq] at hstep
  subst next
  refine ⟨⟨nextUsed, tail, hnext⟩, ?_, ?_, h.count_lt, ?_⟩
  · simpa only [hsem] using h.handle
  · simpa only [hsem] using h.maxsem
  · simp only [hsem, hlength, List.length_cons]
    omega

/-- Giving a token back moves the block from the holders to the releases. -/
theorem Consistent.release_signal [Itron] [DecidableEq Tid] (h : Consistent count state) {task : Tid}
    {block : Addr} {next : PoolTasks Tid} (henabled : state.Enabled (.release_signal task block))
    (hstep : state.step (.release_signal task block) = ok next) : Consistent count next := by
  obtain ⟨used, tail, hrep⟩ := h.represents
  have htokens := h.tokens
  have hcount := h.count_lt
  have hmem : (task, block) ∈ state.held := henabled.2
  have hlength := List.length_erase_of_mem hmem
  have hpos := List.length_pos_of_mem hmem
  have hroom : state.pool.m_sem.semcnt < state.pool.m_sem.maxsem := by
    rw [h.maxsem]
    omega
  simp only [step, h.buffer_ne, Semaphore.release_of_room h.handle hroom, if_false, bind_ok,
    is_failed_kOk, Bool.false_eq_true, ok.injEq] at hstep
  subst next
  have hperm : ((state.held.erase (task, block)).map Prod.snd ++
      ((task, block) :: state.releasing).map Prod.snd).Perm state.out := by
    have hheld := (List.perm_cons_erase hmem).map Prod.snd
    exact List.perm_middle.trans (hheld.symm.append_right _)
  refine ⟨⟨used, tail, (hrep.set_sem _).perm hperm⟩, h.handle, h.maxsem, h.count_lt, ?_⟩
  simp only [hlength]
  omega

theorem Consistent.release_section [Itron] [DecidableEq Tid] (h : Consistent count state) {task : Tid}
    {block : Addr} {next : PoolTasks Tid} (henabled : state.Enabled (.release_section task block))
    (hstep : state.step (.release_section task block) = ok next) : Consistent count next := by
  obtain ⟨used, tail, hrep⟩ := h.represents
  have hperm : (block :: (state.held.map Prod.snd ++
      (state.releasing.erase (task, block)).map Prod.snd)).Perm state.out := by
    have hreleasing := (List.perm_cons_erase henabled).map Prod.snd
    exact List.perm_middle.symm.trans (hreleasing.symm.append_left _)
  have hput := (hrep.perm hperm).put_block
  simp only [step, ok.injEq] at hstep
  subst next
  exact ⟨⟨used, tail, hput⟩, h.handle, h.maxsem, h.count_lt, h.tokens⟩

theorem Consistent.store [Itron] [DecidableEq Tid] (h : Consistent count state) {task : Tid}
    {block word : Addr} {next : PoolTasks Tid} (henabled : state.Enabled (.store task block word))
    (hstep : state.step (.store task block word) = ok next) : Consistent count next := by
  obtain ⟨used, tail, hrep⟩ := h.represents
  have hfree : block ∉ state.free := by
    intro hmem
    have hout : block ∈ state.out :=
      List.mem_append_left _ (List.mem_map.mpr ⟨(task, block), henabled, rfl⟩)
    exact (List.nodup_append.mp hrep.nodup).2.2 block hmem block hout rfl
  simp only [step, ok.injEq] at hstep
  subst next
  exact ⟨⟨used, tail, hrep.write hfree word⟩, h.handle, h.maxsem, h.count_lt, h.tokens⟩

theorem Consistent.step [Itron] [DecidableEq Tid] (h : Consistent count state) {action : TaskStep Tid}
    {next : PoolTasks Tid} (henabled : state.Enabled action) (hbacked : state.TokenBacked action)
    (hstep : state.step action = ok next) : Consistent count next := by
  cases action with
  | get_wait task timeout_ms => exact h.get_wait henabled hstep
  | get_section task => exact h.get_section henabled hbacked hstep
  | release_signal task block => exact h.release_signal henabled hstep
  | release_section task block => exact h.release_section henabled hstep
  | store task block word => exact h.store henabled hstep

/-- Any number of tasks on a created pool, in any interleaving of the two
steps of their calls: no section of a `get` meets an exhausted pool and no
block is ever with two callers, if and only if every section of a `get` is
backed by a token when it runs. -/
theorem preemption_safe_iff [Itron] [DecidableEq Tid] (before pool : FixedMemoryPool) (mem : Addr → Addr)
    (hbefore : before.Uncreated) (block_size block_count : UInt32) (buffer : Addr) (er_id : Int)
    (hcontract : FixedMemoryPool.CreateContract block_size block_count buffer er_id)
    (hcreate : before.create block_size block_count buffer er_id = ok (kOk, pool))
    (actions : List (TaskStep Tid)) (hactions : Along step Enabled { pool, mem } actions) :
    (Along step NotOnEmpty { pool, mem } actions ∧ Always step Exclusive { pool, mem } actions) ↔
      Along step TokenBacked { pool, mem } actions := by
  obtain ⟨created, hcreated, hrep, _, _, hsem⟩ := hbefore.create hcontract mem
  obtain rfl : pool = created := by simpa using hcreate.symm.trans hcreated
  have hstart : Consistent block_count.toNat ({ pool, mem } : PoolTasks Tid) := by
    refine ⟨⟨0, _, hrep⟩, ?_, ?_, hcontract.count_lt, ?_⟩
    · have hid := hcontract.id
      simp only [hsem, kInvalidSemaphoreHandle]
      omega
    · simp only [hsem]
    · simp [hsem]
  have hiff : Along step NotOnEmpty { pool, mem } actions ↔ Along step TokenBacked { pool, mem } actions := by
    refine Along.iff_of_step (Consistent block_count.toNat) ?_ ?_ hstart hactions
    · intro state action hconsistent _
      exact hconsistent.notOnEmpty_iff action
    · intro state action next hconsistent henabled hbacked hstep
      exact hconsistent.step henabled hbacked hstep
  refine ⟨fun hsafe => hiff.mp hsafe.1, fun hbacked => ⟨hiff.mpr hbacked, ?_⟩⟩
  have halways : Always step (Consistent block_count.toNat) { pool, mem } actions := by
    refine Along.always _ ?_ hstart (along_and.mpr ⟨hactions, hbacked⟩)
    intro state action next hconsistent hallowed hstep
    exact hconsistent.step hallowed.1 hallowed.2 hstep
  exact halways.imp fun state hconsistent => hconsistent.exclusive

/-- Two tasks share the one block of a pool, the second getting it after the
first has released it. -/
theorem preemption_safe_handover :
    ∃ pool, ({} : FixedMemoryPool).create 8 1 64 1 = ok (kOk, pool) ∧
      Along step NotOnEmpty { pool, mem := fun _ => nullptr }
        [.get_wait 1 0, .get_section 1, .release_signal 1 64, .release_section 1 64,
          .get_wait 2 0, .get_section 2] ∧
      Always step Exclusive { pool, mem := fun _ => nullptr }
        [.get_wait 1 0, .get_section 1, .release_signal 1 64, .release_section 1 64,
          .get_wait 2 0, .get_section 2] := by
  refine ⟨_, rfl, ?_⟩
  refine (preemption_safe_iff {} _ (fun _ => nullptr) ⟨rfl, rfl⟩ 8 1 64 1
    ⟨by decide, by decide, by decide, by decide⟩ rfl _ ?_).mpr ?_
  · refine ⟨by simp [Enabled, Idle], ?_⟩
    rintro _ ⟨⟩
    refine ⟨by simp [Enabled], ?_⟩
    rintro _ ⟨⟩
    refine ⟨by simp [Enabled, Idle], ?_⟩
    rintro _ ⟨⟩
    refine ⟨by simp [Enabled], ?_⟩
    rintro _ ⟨⟩
    refine ⟨by simp [Enabled, Idle], ?_⟩
    rintro _ ⟨⟩
    exact ⟨by simp [Enabled], fun _ _ => trivial⟩
  · refine ⟨trivial, ?_⟩
    rintro _ ⟨⟩
    refine ⟨by simp [TokenBacked], ?_⟩
    rintro _ ⟨⟩
    refine ⟨trivial, ?_⟩
    rintro _ ⟨⟩
    refine ⟨trivial, ?_⟩
    rintro _ ⟨⟩
    refine ⟨trivial, ?_⟩
    rintro _ ⟨⟩
    exact ⟨by simp [TokenBacked], fun _ _ => trivial⟩

/-- Task 1 is preempted in `release` between the semaphore and the section:
task 2 is granted the token of the one block and finds the pool exhausted. -/
theorem release_preempted_exhausts :
    ∃ pool, ({} : FixedMemoryPool).create 8 1 64 1 = ok (kOk, pool) ∧
      Along step Enabled { pool, mem := fun _ => nullptr }
        [.get_wait 1 0, .get_section 1, .release_signal 1 64, .get_wait 2 0, .get_section 2] ∧
      ¬ Along step NotOnEmpty { pool, mem := fun _ => nullptr }
        [.get_wait 1 0, .get_section 1, .release_signal 1 64, .get_wait 2 0, .get_section 2] ∧
      steps step { pool, mem := fun _ => nullptr }
        [.get_wait 1 0, .get_section 1, .release_signal 1 64, .get_wait 2 0, .get_section 2] =
        fail .invalid_access := by
  refine ⟨_, rfl, ?_, ?_, rfl⟩
  · refine ⟨by simp [Enabled, Idle], ?_⟩
    rintro _ ⟨⟩
    refine ⟨by simp [Enabled], ?_⟩
    rintro _ ⟨⟩
    refine ⟨by simp [Enabled, Idle], ?_⟩
    rintro _ ⟨⟩
    refine ⟨by simp [Enabled, Idle], ?_⟩
    rintro _ ⟨⟩
    exact ⟨by simp [Enabled], fun _ _ => trivial⟩
  · intro hsafe
    have hlast := ((((hsafe.2 _ rfl).2 _ rfl).2 _ rfl).2 _ rfl).1
    exact hlast ⟨rfl, rfl⟩

end PoolTasks

end kfw.rtos
