import Kfw.Rtos.FixedMemoryPool.Represents
import Kfw.Lib.Run

open exec Result

namespace kfw.rtos

/-- A `DataQueue` with the kernel's queue behind its handle: its capacity and
the data in it, oldest first. -/
structure DataQueue where
  m_handle : Int := 0
  dtqcnt : Nat := 0
  data : List Addr := []

/-- `er_id` is the kernel's answer to `acre_dtq`. -/
def DataQueue.create (self : DataQueue) (queue_count : UInt32) (er_id : Int) : ret_t × DataQueue :=
  if self.m_handle ≠ 0 then (kEInvalidOperation, self)
  else if er_id ≤ 0 then (kEResource, self)
  else (kOk, { m_handle := er_id, dtqcnt := queue_count.toNat, data := [] })

/-- `er` is the kernel's answer to `ipsnd_dtq` on a queue that is not full. -/
def DataQueue.send_isr [Itron] (self : DataQueue) (data : Addr) (er : Int) : ret_t × DataQueue :=
  if self.m_handle = 0 then (kEDisposed, self)
  else
    let (er, queue) := Itron.psnd_dtq self.dtqcnt self.data data er
    let self := { self with data := queue }
    if er ≠ E_OK then (kfw_convert_er er, self)
    else (kOk, self)

/-- A receive without timeout: it waits while the queue is empty. -/
def DataQueue.recv [Itron] (self : DataQueue) : Exec (ret_t × Option Addr × DataQueue) :=
  if self.m_handle = 0 then ok (kEDisposed, none, self)
  else do
    let (er, data, queue) ← Itron.trcv_dtq self.data
    let self := { self with data := queue }
    if er ≠ E_OK then ok (kfw_convert_er er, none, self)
    else ok (kOk, data, self)

/-- A `Callback<void()>`: its first word and the rest of it. -/
structure Callback where
  m_obj : Addr
  m_func : Nat
  deriving DecidableEq

/-- The callback stored in the item at an address. -/
def Callback.load (mem : Addr → Addr) (funcs : Addr → Nat) (work_item : Addr) : Callback :=
  ⟨mem work_item, funcs work_item⟩

/-- `sizeof(ThreadPoolWorkItem)`: the object pointer, a four-word function
union and the operations pointer of its callback. -/
def sizeof_ThreadPoolWorkItem : UInt32 := 24

/-- A `ThreadPool` with the memory of its items: `mem` is the first word at
each address and `funcs` what follows it. `executing` are the items its
workers have received and not finished with, `deleted` those they have passed
to `delete`. `accepted` and `started` list the callbacks whose queueing
returned `kOk` and those that workers have begun to call. -/
structure ThreadPool where
  m_queue : DataQueue := {}
  m_pool : FixedMemoryPool := {}
  mem : Addr → Addr
  funcs : Addr → Nat
  executing : List Addr := []
  deleted : List Addr := []
  accepted : List Callback := []
  started : List Callback := []

namespace ThreadPool

/-- The answers of the two creations are not looked at. -/
def start (self : ThreadPool) (buffer : Addr) (er_sem er_dtq : Int) : Exec ThreadPool := do
  let (_, pool) ← self.m_pool.create sizeof_ThreadPoolWorkItem 32 buffer er_sem
  let (_, queue) := self.m_queue.create 32 er_dtq
  ok { self with m_pool := pool, m_queue := queue }

def queue_work_item_isr [Itron] (self : ThreadPool) (func : Callback) (er : Int) : Exec (ret_t × ThreadPool) := do
  let (r, block, pool) ← self.m_pool.get_isr self.mem
  let self := { self with m_pool := pool }
  match block with
  | none => ok (r, self)
  | some work_item =>
    let self := { self with
      mem := Function.update self.mem work_item func.m_obj
      funcs := Function.update self.funcs work_item func.m_func }
    let (r, queue) := self.m_queue.send_isr work_item er
    if is_failed r then do
      let (_, pool, mem) ← self.m_pool.release self.mem work_item
      ok (r, { self with m_pool := pool, mem })
    else ok (kOk, { self with m_queue := queue })

/-- The first half of a pass through `thread_main`: a worker receives an item
and begins to call it. -/
def thread_recv [Itron] (self : ThreadPool) : Exec ThreadPool := do
  let (_, data, queue) ← self.m_queue.recv
  match data with
  | none => ok self
  | some work_item => ok { self with
      m_queue := queue
      executing := work_item :: self.executing
      started := self.started ++ [Callback.load self.mem self.funcs work_item] }

/-- The second half: the call has returned, and the item goes to `delete`. It lies in the
buffer of the pool: `delete` of the first block gives the whole buffer back to the heap, and
of another what the heap never handed out. That the buffer is lost is not followed. -/
def thread_delete (self : ThreadPool) (work_item : Addr) : ThreadPool :=
  { self with
    executing := self.executing.erase work_item
    deleted := work_item :: self.deleted }

/-- The steps of a run: interrupts queueing work, and the two halves of the
workers' passes. -/
inductive Event where
  | queue_work_item_isr (func : Callback) (er : Int)
  | thread_recv
  | thread_delete (work_item : Addr)

def step [Itron] (self : ThreadPool) : Event → Exec ThreadPool
  | .queue_work_item_isr func er => do
    let (r, self) ← self.queue_work_item_isr func er
    if is_failed r then ok self
    else ok { self with accepted := self.accepted ++ [func] }
  | .thread_recv => self.thread_recv
  | .thread_delete work_item => ok (self.thread_delete work_item)

/-- There are two workers, which wait while the queue is empty. -/
def Enabled (self : ThreadPool) : Event → Prop
  | .queue_work_item_isr _ _ => True
  | .thread_recv => self.m_queue.data ≠ [] ∧ self.executing.length < 2
  | .thread_delete work_item => work_item ∈ self.executing

/-- Each of the 32 blocks is exactly one of available in the pool (never used
or in the free list), waiting in the queue and being executed. -/
def Conserved (self : ThreadPool) : Prop :=
  ∃ free, Segment self.mem self.m_pool.m_free_list free nullptr ∧
    (self.m_pool.fresh ++ (free ++ (self.m_queue.data ++ self.executing))).Perm
      ((List.range 32).map self.m_pool.block)

/-- The callbacks called so far, followed by the waiting ones, are the
accepted ones in their order: each is called at most once. -/
def CalledOnce (self : ThreadPool) : Prop :=
  self.accepted = self.started ++ self.m_queue.data.map (Callback.load self.mem self.funcs)

/-- The call comes back, without an invalid access. -/
def Returns [Itron] (self : ThreadPool) (event : Event) : Prop :=
  ∃ next, self.step event = ok next

/-- No item is passed to `delete`; and work is queued only while a block is
available, and when the token that a refused item gives back still fits. A
call that the semaphore refuses does nothing. -/
def KeepsBlocks (self : ThreadPool) : Event → Prop
  | .queue_work_item_isr _ er =>
    self.m_pool.m_sem.semcnt = self.m_pool.m_sem.maxsem ∨
      self.m_queue.data.length + self.executing.length < 32 ∧
        (er = E_OK ∨ self.m_pool.m_sem.semcnt + 1 < self.m_pool.m_sem.maxsem)
  | .thread_recv => True
  | .thread_delete _ => False

end ThreadPool

end kfw.rtos
