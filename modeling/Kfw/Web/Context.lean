import Kfw.Common.DseString
import Kfw.Io.BufferedStream.Alike
import Kfw.Io.StreamWriter
import Kfw.Net.Socket
import Kfw.Web.ChunkBuffer.Contents
import Kfw.Web.RequestStream

open exec Result kfw.io kfw.net

namespace kfw.web

structure Uri where
  m_raw_url : List UInt8 := []
  deriving DecidableEq

def Uri.init (allocator : Allocator) (heap : Heap) (uri : ConstStringRef) : Exec (ret_t × Uri × Heap) := do
  let (m_raw_url, heap) ← string_of_ref allocator heap uri
  ok (kOk, { m_raw_url }, heap)

structure HttpListenerRequest where
  m_method : List UInt8 := []
  m_uri : Uri := {}
  m_content_length : UInt32 := 0
  m_stream : HttpListenerRequestStream := {}

/-- The response's stream, a buffer for the whole body. -/
structure HttpListenerResponseStream where
  m_chunk_buffer : ChunkBuffer := {}

namespace HttpListenerResponseStream

/-- The answer of `init` is not looked at. -/
def create (allocator : Allocator) (self : HttpListenerResponseStream) (heap : Heap) :
    Exec (ret_t × HttpListenerResponseStream × Heap) := do
  let (_, m_chunk_buffer, heap) ← self.m_chunk_buffer.init allocator heap 512
  ok (kOk, { m_chunk_buffer }, heap)

def write (allocator : Allocator) (self : HttpListenerResponseStream) (heap : Heap) (data : List UInt8)
    (fuel : Nat) : Exec (RetVal UInt32 × HttpListenerResponseStream × Heap) := do
  let (r, m_chunk_buffer, heap) ← self.m_chunk_buffer.write allocator heap data fuel
  if is_failed r then ok (⟨r, 0⟩, { m_chunk_buffer }, heap)
  else ok (⟨kOk, data.length.toUInt32⟩, { m_chunk_buffer }, heap)

/-- A response stream without chunks is given its first one. -/
theorem create_granted {allocator : Allocator} (hgrants : allocator.Grants)
    {self : HttpListenerResponseStream} (hfirst : self.m_chunk_buffer.m_first_chunk = nullptr)
    (heap : Heap) :
    ∃ next nextHeap, self.create allocator heap = ok (kOk, next, nextHeap) ∧
      next.m_chunk_buffer.Holds nextHeap [] [] ∧
      nextHeap.word next.m_chunk_buffer.m_current_chunk = nullptr ∧ next.m_chunk_buffer.m_chunk_size = 512 := by
  obtain ⟨⟨addr, block⟩, halloc⟩ := Option.isSome_iff_exists.mp (hgrants heap (512 + offsetof_m_buffer))
  obtain ⟨next, nextHeap, hinit, hholds, hword, hsize⟩ :=
    ChunkBuffer.init_holds hfirst (by decide) (by decide) halloc
  exact ⟨{ m_chunk_buffer := next }, nextHeap, by simp [create, hinit], hholds, hword, hsize⟩

/-- A response stream with chunks keeps them. -/
theorem create_again (allocator : Allocator) {self : HttpListenerResponseStream}
    (hfirst : self.m_chunk_buffer.m_first_chunk ≠ nullptr) (heap : Heap) :
    self.create allocator heap = ok (kOk, self, heap) := by
  simp [create, ChunkBuffer.init, hfirst]

theorem create_total {allocator : Allocator} (hgrants : allocator.Grants)
    (self : HttpListenerResponseStream) (heap : Heap) :
    ∃ next nextHeap, self.create allocator heap = ok (kOk, next, nextHeap) := by
  by_cases hfirst : self.m_chunk_buffer.m_first_chunk = nullptr
  · obtain ⟨next, nextHeap, hcreate, _⟩ := create_granted hgrants hfirst heap
    exact ⟨next, nextHeap, hcreate⟩
  · exact ⟨self, heap, create_again allocator hfirst heap⟩

end HttpListenerResponseStream

structure HttpListenerResponse where
  m_is_opened : Bool := false
  m_status_code : Int32 := 200
  m_content_type : List UInt8 := []
  m_stream : HttpListenerResponseStream := {}

/-- The memory of `m_buffer` is the read buffer of `m_stream` from the moment
the stream is attached. -/
structure HttpListenerContext (σ : Type) where
  m_is_created : Bool := false
  m_client : TcpClient σ := {}
  m_stream : BufferedStream := {}
  m_buffer : Vector UInt8 256
  m_request : HttpListenerRequest := {}
  m_response : HttpListenerResponse := {}

def HttpUtil.get_status_code_text (status_code : Int32) : List UInt8 :=
  match status_code.toInt with
  | 200 => ascii "OK"
  | 201 => ascii "Created"
  | 202 => ascii "Accepted"
  | 400 => ascii "Bad Request"
  | 401 => ascii "Unauthorized"
  | 403 => ascii "Forbidden"
  | 404 => ascii "Not Found"
  | 405 => ascii "Method Not Allowed"
  | 500 => ascii "Internal Server Error"
  | _ => ascii "Unknown"

def kCrLf : List UInt8 := [13, 10]

variable {σ : Type}

def write_status_line (base : Stream σ) (writer : StreamWriter σ) (status_code : Int32) :
    Exec (StreamWriter σ) := do
  let writer ← writer.put base (ascii "HTTP/1.1 ")
  let writer ← writer.put_int32 base status_code
  let writer ← writer.put base (ascii " ")
  let writer ← writer.put base (HttpUtil.get_status_code_text status_code)
  writer.put base kCrLf

def write_headers (base : Stream σ) (writer : StreamWriter σ) (total_size : UInt32) (content_type : List UInt8) :
    Exec (StreamWriter σ) := do
  let writer ← writer.put base (ascii "Content-Length: ")
  let writer ← writer.put_uint32 base total_size
  let writer ← writer.put base kCrLf
  let writer ← writer.put base (ascii "Content-Type: ")
  let writer ← writer.put base content_type
  let writer ← writer.put base kCrLf
  let writer ← writer.put base (ascii "Connection: close")
  let writer ← writer.put base kCrLf
  writer.put base kCrLf

/-- What `write_response` does with the data of one chunk; it leaves its loop
with `false` when the chunk cannot be written. -/
def send_chunk (base : Stream σ) (state : BufferedStream × σ) (data : List UInt8) :
    Exec (Flow (BufferedStream × σ) (Bool × BufferedStream × σ)) := do
  let (write_ret, s, base_state) ← state.1.write base state.2 data
  if is_failed write_ret.ret then ok (.done (false, s, base_state)) else ok (.cont (s, base_state))

namespace HttpListenerContext

/-- A context before its first use; its buffer may hold anything. -/
def fresh (m_buffer : Vector UInt8 256) : HttpListenerContext σ := { m_buffer }

/-- The stream of a context after the call of `init` in `get_context`, whose
answer is not looked at. -/
def attached (ctx : HttpListenerContext σ) : BufferedStream :=
  (ctx.m_stream.init ctx.m_buffer.toList 256 none 0).2

theorem attached_eq {ctx : HttpListenerContext σ} (hbase : ctx.m_stream.m_base_stream = true) :
    ctx.attached = ctx.m_stream := by
  simp [attached, BufferedStream.init, hbase]

/-- A stream that was never attached starts with nothing unread. -/
theorem attached_unused {ctx : HttpListenerContext σ} (hunused : ctx.m_stream = {}) :
    ctx.attached.ReadOnly 256 [] := by
  have hlength : ctx.m_buffer.toList.length = 256 := ctx.m_buffer.length_toList
  have hattached : ctx.attached = {
      m_base_stream := true
      m_read_buffer := ctx.m_buffer.toList
      m_read_buffer_size := 256 } := by
    rw [attached, hunused]
    rfl
  rw [hattached]
  exact {
    attached := rfl
    size_pos := (by decide : 0 < (256 : UInt32).toNat)
    size_le := Nat.le_of_eq hlength.symm
    rp_le := Nat.le_refl _
    wp_le := Nat.zero_le _
    unread_eq := by simp
    size_eq := rfl
    write_buffer_eq := rfl
    usage_eq := rfl }

/-- The context after its stream and its socket were used. -/
def with_stream (ctx : HttpListenerContext σ) (s : BufferedStream) (socket : Socket σ) : HttpListenerContext σ :=
  { ctx with m_stream := s, m_client := { m_socket := socket } }

/-- `write_response` of the response of a context. -/
def write_response (conn : Stream σ) (ctx : HttpListenerContext σ) (heap : Heap) (fuel : Nat) :
    Exec (ret_t × HttpListenerContext σ × Heap) := do
  let base := SocketStream conn
  let response := ctx.m_response
  let chunk_buffer := response.m_stream.m_chunk_buffer
  let writer ← write_status_line base { m_s := ctx.m_stream, base_state := ctx.m_client.m_socket }
    response.m_status_code
  if is_failed writer.m_error then ok (writer.m_error, ctx.with_stream writer.m_s writer.base_state, heap)
  else do
    let writer ← writer.flush base
    let writer ← write_headers base writer chunk_buffer.get_total_size response.m_content_type
    if is_failed writer.m_error then ok (writer.m_error, ctx.with_stream writer.m_s writer.base_state, heap)
    else do
      let writer ← writer.flush base
      let (sent_all, s, base_state) ← ChunkBufferEnumerator.walk heap (send_chunk base) (fun state => (true, state))
        fuel (.mk_of chunk_buffer) (writer.m_s, writer.base_state)
      -- what is returned here is the error of the writer, which has none
      if ¬ sent_all then ok (writer.m_error, ctx.with_stream s base_state, heap)
      else do
        let (s, base_state) ← s.flush base base_state
        let (m_chunk_buffer, heap) ← chunk_buffer.dispose heap fuel
        let ctx := ctx.with_stream s base_state
        ok (kOk, { ctx with m_response.m_stream.m_chunk_buffer := m_chunk_buffer }, heap)

/-- `close` of the response of a context. -/
def close_response (conn : Stream σ) (ctx : HttpListenerContext σ) (heap : Heap) (fuel : Nat) :
    Exec (HttpListenerContext σ × Heap) :=
  if ¬ ctx.m_response.m_is_opened then ok (ctx, heap)
  else do
    let (_, ctx, heap) ← ctx.write_response conn heap fuel
    ok ({ ctx with m_response.m_is_opened := false }, heap)

/-- Writes to the stream of the response, one after the other. -/
def write_body (allocator : Allocator) (fuel : Nat) :
    HttpListenerContext σ → Heap → List (List UInt8) → Exec (HttpListenerContext σ × Heap)
  | ctx, heap, [] => ok (ctx, heap)
  | ctx, heap, data :: writes => do
    let (_, m_stream, heap) ← ctx.m_response.m_stream.write allocator heap data fuel
    write_body allocator fuel { ctx with m_response.m_stream := m_stream } heap writes

/-- The `dispose` of the request, of the response and of the stream do nothing. -/
def dispose (ctx : HttpListenerContext σ) : HttpListenerContext σ :=
  if ¬ ctx.m_is_created then ctx
  else { ctx with
    m_stream := ctx.m_stream.dispose
    m_client := ctx.m_client.dispose
    m_is_created := false }

end HttpListenerContext

end kfw.web
