import Kfw.Io.Stream

open exec Result

namespace kfw.io

/-- A `BufferedStream`: whether it has a base stream, whose state is passed
along, and its buffers with the memory they point to. -/
structure BufferedStream where
  m_base_stream : Bool := false
  m_read_buffer : List UInt8 := []
  m_read_buffer_size : UInt32 := 0
  m_read_buffer_rp : UInt32 := 0
  m_read_buffer_wp : UInt32 := 0
  m_write_buffer : Option (List UInt8) := none
  m_write_buffer_size : UInt32 := 0
  m_write_buffer_usage : UInt32 := 0

namespace BufferedStream

variable {σ : Type}

/-- `init` with a base stream that is not null. -/
def init (self : BufferedStream) (read_buffer : List UInt8) (read_buffer_size : UInt32)
    (write_buffer : Option (List UInt8)) (write_buffer_size : UInt32) : ret_t × BufferedStream :=
  if self.m_base_stream then (kEInvalidOperation, self)
  else (kOk, { self with
    m_base_stream := true
    m_read_buffer := read_buffer
    m_read_buffer_size := read_buffer_size
    m_write_buffer := write_buffer
    m_write_buffer_size := write_buffer_size })

def dispose (self : BufferedStream) : BufferedStream := self

/-- Where the loop of `read` stands: the stream and its base, the size that
remains, and the bytes put in the caller's buffer so far. -/
structure Reading (σ : Type) where
  self : BufferedStream
  base_state : σ
  remain_size : UInt32
  out : List UInt8 := []

/-- One pass through the loop of `read`. The caller's buffer has room for `size`
bytes. -/
def read_pass (base : Stream σ) (size : UInt32) (reading : Reading σ) :
    Exec (Flow (Reading σ) (RetVal UInt32 × List UInt8 × BufferedStream × σ)) :=
  let { self, base_state, remain_size, out } := reading
  if remain_size = 0 then ok (.done (⟨kOk, size - remain_size⟩, out, self, base_state))
  else
    let remain_in_buffer := self.m_read_buffer_wp - self.m_read_buffer_rp
    if remain_in_buffer > 0 then
      -- as many bytes as were asked for, not as remain
      let copy_size := if size > remain_in_buffer then remain_in_buffer else size
      let from_buffer := (self.m_read_buffer.drop self.m_read_buffer_rp.toNat).take copy_size.toNat
      if from_buffer.length < copy_size.toNat ∨ size.toNat < out.length + copy_size.toNat then
        fail .invalid_access
      else ok (.cont {
        self := { self with m_read_buffer_rp := self.m_read_buffer_rp + copy_size }
        base_state
        remain_size := remain_size - copy_size
        out := out ++ from_buffer })
    else if remain_size > self.m_read_buffer_size then do
      -- the answer of the base stream alone is returned
      let (r, data, base_state) ← base.read base_state remain_size
      ok (.done (r, out ++ data, self, base_state))
    else do
      let (r, data, base_state) ← base.read base_state self.m_read_buffer_size
      if self.m_read_buffer.length < data.length then fail .invalid_access
      else
        let self := { self with m_read_buffer := data ++ self.m_read_buffer.drop data.length }
        if is_failed r.ret then ok (.done (⟨r.ret, size - remain_size⟩, out, self, base_state))
        else ok (.cont {
          self := { self with m_read_buffer_rp := 0, m_read_buffer_wp := r.val }
          base_state
          remain_size
          out })

def read (base : Stream σ) (self : BufferedStream) (base_state : σ) (size : UInt32) (fuel : Nat) :
    Exec (RetVal UInt32 × List UInt8 × BufferedStream × σ) :=
  if ¬ self.m_base_stream then ok (⟨kEDisposed, 0⟩, [], self, base_state)
  else if size = 0 then ok (⟨kOk, 0⟩, [], self, base_state)
  else loop (read_pass base size) fuel { self, base_state, remain_size := size }

def flush_write_buffer (base : Stream σ) (self : BufferedStream) (base_state : σ) :
    Exec (ret_t × BufferedStream × σ) :=
  if self.m_write_buffer_usage = 0 then ok (kOk, self, base_state)
  else if ¬ self.m_base_stream then fail .invalid_access
  else
    match self.m_write_buffer with
    | none => fail .invalid_access
    | some mem =>
      if mem.length < self.m_write_buffer_usage.toNat then fail .invalid_access
      else do
        let (r, base_state) ← base.write base_state (mem.take self.m_write_buffer_usage.toNat)
        if is_failed r.ret then ok (r.ret, self, base_state)
        else ok (kOk, { self with m_write_buffer_usage := 0 }, base_state)

def flush (base : Stream σ) (self : BufferedStream) (base_state : σ) : Exec (BufferedStream × σ) := do
  let (_, self, base_state) ← self.flush_write_buffer base base_state
  if ¬ self.m_base_stream then fail .invalid_access
  else do
    let base_state ← base.flush base_state
    ok (self, base_state)

def close (base : Stream σ) (self : BufferedStream) (base_state : σ) : Exec (BufferedStream × σ) :=
  self.flush base base_state

/-- Puts `data` in the write buffer, at its end. -/
def fill_write_buffer (self : BufferedStream) (mem data : List UInt8) : Exec BufferedStream :=
  let usage := self.m_write_buffer_usage.toNat
  if mem.length < usage + data.length then fail .invalid_access
  else ok { self with
    m_write_buffer := some (mem.take usage ++ (data ++ mem.drop (usage + data.length)))
    m_write_buffer_usage := self.m_write_buffer_usage + data.length.toUInt32 }

def write (base : Stream σ) (self : BufferedStream) (base_state : σ) (data : List UInt8) :
    Exec (RetVal UInt32 × BufferedStream × σ) :=
  if ¬ self.m_base_stream then ok (⟨kEDisposed, 0⟩, self, base_state)
  else if data = [] then ok (⟨kOk, 0⟩, self, base_state)
  else
    match self.m_write_buffer with
    | none => do
      let (r, base_state) ← base.write base_state data
      ok (r, self, base_state)
    | some mem =>
      if data.length > self.m_write_buffer_size.toNat then do
        let (r, self, base_state) ← self.flush_write_buffer base base_state
        if is_failed r then ok (⟨r, 0⟩, self, base_state)
        else do
          let (r, base_state) ← base.write base_state data
          ok (r, self, base_state)
      else if (self.m_write_buffer_size - self.m_write_buffer_usage).toNat < data.length then do
        let (r, self, base_state) ← self.flush_write_buffer base base_state
        if is_failed r then ok (⟨kEDisposed, 0⟩, self, base_state)
        else do
          let self ← self.fill_write_buffer mem data
          ok (⟨kOk, data.length.toUInt32⟩, self, base_state)
      else do
        let self ← self.fill_write_buffer mem data
        ok (⟨kOk, data.length.toUInt32⟩, self, base_state)

end BufferedStream

end kfw.io
