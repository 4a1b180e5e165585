import Kfw.Common.Heap

open exec Result

namespace kfw.web

/-- `offsetof(ChunkBufferChunk, m_buffer)`: a chunk is a link followed by data. -/
def offsetof_m_buffer : UInt32 := 4

structure ChunkBuffer where
  m_first_chunk : Addr := nullptr
  m_current_chunk : Addr := nullptr
  m_current_chunk_pos : UInt32 := 0
  m_chunk_size : UInt32 := 0
  m_total_size : UInt32 := 0
  deriving DecidableEq

namespace ChunkBuffer

def init (allocator : Allocator) (self : ChunkBuffer) (heap : Heap) (chunk_size : UInt32) :
    Exec (ret_t × ChunkBuffer × Heap) :=
  if self.m_first_chunk ≠ nullptr then ok (kEInvalidOperation, self, heap)
  else
    let (chunk, heap) := heap.operator_new allocator (chunk_size + offsetof_m_buffer)
    let self := { self with m_chunk_size := chunk_size, m_current_chunk_pos := 0, m_first_chunk := chunk }
    if chunk = nullptr then ok (kEOutOfMemory, self, heap)
    else do
      let heap ← heap.store_word chunk nullptr
      ok (kOk, { self with m_current_chunk := chunk, m_total_size := 0 }, heap)

/-- The loop of `dispose`, from the chunk it stands at. -/
def dispose_chunks (heap : Heap) (chunk : Addr) (fuel : Nat) : Exec Heap :=
  loop (fun (heap, chunk) =>
    if chunk = nullptr then ok (.done heap)
    else do
      let next_chunk ← heap.load_word chunk
      let heap ← heap.operator_delete chunk
      ok (.cont (heap, next_chunk))) fuel (heap, chunk)

/-- The sizes and the position are left as they are. -/
def dispose (self : ChunkBuffer) (heap : Heap) (fuel : Nat) : Exec (ChunkBuffer × Heap) :=
  if self.m_first_chunk = nullptr then ok (self, heap)
  else do
    let heap ← dispose_chunks heap self.m_first_chunk fuel
    ok ({ self with m_first_chunk := nullptr, m_current_chunk := nullptr }, heap)

/-- One pass through the loop of `write`, with the bytes that remain. -/
def write_pass (allocator : Allocator) :
    ChunkBuffer × Heap × List UInt8 →
      Exec (Flow (ChunkBuffer × Heap × List UInt8) (ret_t × ChunkBuffer × Heap))
  | (self, heap, []) => ok (.done (kOk, self, heap))
  | (self, heap, remain) =>
    let current_remain := self.m_chunk_size - self.m_current_chunk_pos
    if current_remain = 0 then
      let (new_chunk, heap) := heap.operator_new allocator (self.m_chunk_size + offsetof_m_buffer)
      if new_chunk = nullptr then ok (.done (kEOutOfMemory, self, heap))
      else do
        -- the link of the new chunk itself is not set
        let heap ← heap.store_word self.m_current_chunk new_chunk
        ok (.cont ({ self with m_current_chunk := new_chunk, m_current_chunk_pos := 0 }, heap, remain))
    else do
      let copy_size := if remain.length > current_remain.toNat then current_remain else remain.length.toUInt32
      let heap ← heap.store_bytes self.m_current_chunk self.m_current_chunk_pos (remain.take copy_size.toNat)
      ok (.cont ({ self with
        m_current_chunk_pos := self.m_current_chunk_pos + copy_size
        m_total_size := self.m_total_size + copy_size }, heap, remain.drop copy_size.toNat))

def write (allocator : Allocator) (self : ChunkBuffer) (heap : Heap) (data : List UInt8) (fuel : Nat) :
    Exec (ret_t × ChunkBuffer × Heap) :=
  loop (write_pass allocator) fuel (self, heap, data)

def get_total_size (self : ChunkBuffer) : UInt32 := self.m_total_size

end ChunkBuffer

structure ChunkBufferEnumerator where
  m_chunk_buffer : ChunkBuffer
  m_current_chunk : Addr

namespace ChunkBufferEnumerator

def mk_of (cb : ChunkBuffer) : ChunkBufferEnumerator :=
  { m_chunk_buffer := cb, m_current_chunk := cb.m_first_chunk }

def is_end (self : ChunkBufferEnumerator) : Bool := self.m_current_chunk = nullptr

def next (self : ChunkBufferEnumerator) (heap : Heap) : Exec ChunkBufferEnumerator :=
  if self.m_current_chunk = nullptr then ok self
  else do
    let chunk ← heap.load_word self.m_current_chunk
    ok { self with m_current_chunk := chunk }

def get_data_size (self : ChunkBufferEnumerator) : UInt32 :=
  if self.m_current_chunk = self.m_chunk_buffer.m_current_chunk then self.m_chunk_buffer.m_current_chunk_pos
  else self.m_chunk_buffer.m_chunk_size

/-- `get_data()[0..get_data_size())`. -/
def get_data (self : ChunkBufferEnumerator) (heap : Heap) : Exec (List UInt8) :=
  heap.load_bytes self.m_current_chunk self.get_data_size

variable {τ ρ : Type}

/-- One pass of a loop over the chunks, `while(!is_end()) { ...; next(); }`:
`visit` is what is done with the data of a chunk, and `finish` what comes after
the loop. -/
def walk_pass (heap : Heap) (visit : τ → List UInt8 → Exec (Flow τ ρ)) (finish : τ → ρ) :
    ChunkBufferEnumerator × τ → Exec (Flow (ChunkBufferEnumerator × τ) ρ)
  | (self, acc) =>
    if self.is_end then ok (.done (finish acc))
    else do
      let data ← self.get_data heap
      match ← visit acc data with
      | .done result => ok (.done result)
      | .cont acc => do
        let self ← self.next heap
        ok (.cont (self, acc))

def walk (heap : Heap) (visit : τ → List UInt8 → Exec (Flow τ ρ)) (finish : τ → ρ) (fuel : Nat)
    (self : ChunkBufferEnumerator) (acc : τ) : Exec ρ :=
  loop (walk_pass heap visit finish) fuel (self, acc)

end ChunkBufferEnumerator

end kfw.web
