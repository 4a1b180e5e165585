import Kfw.Rtos.Semaphore

open exec Result

namespace kfw.rtos

/-- A block pool. Blocks that were never used lie from
`m_allocated_buffer_size` to the end of the buffer; released ones are chained
through their first word, starting at `m_free_list`. -/
structure FixedMemoryPool where
  m_buffer : Addr := nullptr
  m_allocated_buffer_size : UInt32 := 0
  m_buffer_size : UInt32 := 0
  m_block_size : UInt32 := 0
  m_free_list : Addr := nullptr
  m_sem : Semaphore := {}
  deriving DecidableEq

namespace FixedMemoryPool

/-- `buffer` is the answer of `new uint8_t[buffer_size]` and `er_id` that of
the kernel to the creation of the semaphore. -/
def create (self : FixedMemoryPool) (block_size block_count : UInt32) (buffer : Addr) (er_id : Int) :
    Exec (ret_t × FixedMemoryPool) :=
  if self.m_buffer ≠ nullptr then ok (kEInvalidOperation, self)
  else do
    let buffer_size := block_size * block_count
    -- the answer of m_sem.create is not looked at
    let (_, sem) ← self.m_sem.create block_count 0xFFFFFFFF er_id
    ok (kOk, { self with
      m_buffer := buffer
      m_allocated_buffer_size := 0
      m_buffer_size := buffer_size
      m_block_size := block_size
      m_sem := sem })

/-- Disposing leaves `m_free_list` as it is. -/
def dispose (self : FixedMemoryPool) : FixedMemoryPool :=
  if self.m_buffer = nullptr then self
  else { self with m_sem := self.m_sem.dispose, m_buffer := nullptr }

/-- The CPU-locked section of `get` and `get_isr`; `mem` gives the first word
of the block at each address. -/
def take_block (self : FixedMemoryPool) (mem : Addr → Addr) : Exec (Addr × FixedMemoryPool) :=
  if self.m_allocated_buffer_size ≠ self.m_buffer_size then
    ok (self.m_buffer + self.m_allocated_buffer_size.toNat,
      { self with m_allocated_buffer_size := self.m_allocated_buffer_size + self.m_block_size })
  else if self.m_free_list = nullptr then fail .invalid_access
  else ok (self.m_free_list, { self with m_free_list := mem self.m_free_list })

/-- The CPU-locked section of `release`. -/
def put_block (self : FixedMemoryPool) (mem : Addr → Addr) (block : Addr) :
    FixedMemoryPool × (Addr → Addr) :=
  ({ self with m_free_list := block }, Function.update mem block self.m_free_list)

def get [Itron] (self : FixedMemoryPool) (mem : Addr → Addr) (timeout_ms : Int) :
    Exec (ret_t × Option Addr × FixedMemoryPool) :=
  if self.m_buffer = nullptr then ok (kEInvalidOperation, none, self)
  else do
    let (r, sem) ← self.m_sem.wait timeout_ms
    let self := { self with m_sem := sem }
    if is_failed r then ok (r, none, self)
    else do
      let (p, self) ← self.take_block mem
      ok (kOk, some p, self)

/-- As `get`, but the token is given back where `get` takes one. -/
def get_isr [Itron] (self : FixedMemoryPool) (mem : Addr → Addr) :
    Exec (ret_t × Option Addr × FixedMemoryPool) :=
  if self.m_buffer = nullptr then ok (kEInvalidOperation, none, self)
  else do
    let (r, sem) ← self.m_sem.release_isr
    let self := { self with m_sem := sem }
    if is_failed r then ok (r, none, self)
    else do
      let (p, self) ← self.take_block mem
      ok (kOk, some p, self)

def release [Itron] (self : FixedMemoryPool) (mem : Addr → Addr) (block : Addr) :
    Exec (ret_t × FixedMemoryPool × (Addr → Addr)) :=
  if self.m_buffer = nullptr then ok (kEInvalidOperation, self, mem)
  else do
    let (r, sem) ← self.m_sem.release
    let self := { self with m_sem := sem }
    if is_failed r then ok (r, self, mem)
    else ok (kOk, self.put_block mem block)

end FixedMemoryPool

end kfw.rtos
