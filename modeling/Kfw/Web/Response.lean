import Kfw.Web.ChunkBuffer.Dispose
import Kfw.Web.ChunkBuffer.Replay
import Kfw.Web.Framing

open exec Result kfw.io kfw.net kfw.text

namespace kfw.web

variable {σ : Type} {base : Stream σ} {sent : σ → List UInt8 → Prop}

/-- The status line of a response, without its CRLF. -/
def status_line (status : Nat) : List UInt8 :=
  ascii "HTTP/1.1 " ++ (decimal status ++ (ascii " " ++ HttpUtil.get_status_code_text (Int32.ofNat status)))

/-- The header lines of a response. -/
def response_headers (length : Nat) (content_type : List UInt8) : List (List UInt8) :=
  [ascii "Content-Length: " ++ decimal length, ascii "Content-Type: " ++ content_type, ascii "Connection: close"]

/-- A response as it is sent, with the length that its headers give. -/
def response_bytes (status length : Nat) (content_type body : List UInt8) : List UInt8 :=
  status_line status ++ 13 :: 10 :: (header_bytes (response_headers length content_type) ++ body)

section Writer

open StreamWriter

variable {s : BufferedStream} {writer : StreamWriter σ} {bytes : List UInt8}

theorem write_status_line_spec (h : Wrote sent writer s bytes) (hs : s.Unbuffered)
    (hbase : base.Accepts sent) {status : Nat} (hstatus : status < 2 ^ 31) :
    ∃ next, write_status_line base writer (Int32.ofNat status) = ok next ∧
      Wrote sent next s (bytes ++ (status_line status ++ kCrLf)) := by
  obtain ⟨w1, h1, hw1⟩ := h.put hs hbase (ascii "HTTP/1.1 ")
  obtain ⟨w2, h2, hw2⟩ := hw1.put_int32 hs hbase hstatus
  obtain ⟨w3, h3, hw3⟩ := hw2.put hs hbase (ascii " ")
  obtain ⟨w4, h4, hw4⟩ := hw3.put hs hbase (HttpUtil.get_status_code_text (Int32.ofNat status))
  obtain ⟨w5, h5, hw5⟩ := hw4.put hs hbase kCrLf
  refine ⟨w5, by simp [write_status_line, h1, h2, h3, h4, h5], ?_⟩
  simpa only [status_line, List.append_assoc] using hw5

theorem write_headers_spec (h : Wrote sent writer s bytes) (hs : s.Unbuffered) (hbase : base.Accepts sent)
    (total_size : UInt32) (content_type : List UInt8) :
    ∃ next, write_headers base writer total_size content_type = ok next ∧
      Wrote sent next s (bytes ++ header_bytes (response_headers total_size.toNat content_type)) := by
  obtain ⟨w1, h1, hw1⟩ := h.put hs hbase (ascii "Content-Length: ")
  obtain ⟨w2, h2, hw2⟩ := hw1.put_uint32 hs hbase total_size
  obtain ⟨w3, h3, hw3⟩ := hw2.put hs hbase kCrLf
  obtain ⟨w4, h4, hw4⟩ := hw3.put hs hbase (ascii "Content-Type: ")
  obtain ⟨w5, h5, hw5⟩ := hw4.put hs hbase content_type
  obtain ⟨w6, h6, hw6⟩ := hw5.put hs hbase kCrLf
  obtain ⟨w7, h7, hw7⟩ := hw6.put hs hbase (ascii "Connection: close")
  obtain ⟨w8, h8, hw8⟩ := hw7.put hs hbase kCrLf
  obtain ⟨w9, h9, hw9⟩ := hw8.put hs hbase kCrLf
  refine ⟨w9, by simp [write_headers, h1, h2, h3, h4, h5, h6, h7, h8, h9], ?_⟩
  simpa only [header_bytes, response_headers, List.flatMap_cons, List.flatMap_nil, List.append_assoc,
    List.nil_append] using hw9

/-- Sending the pieces of the body one after the other. -/
theorem send_chunks_spec (hs : s.Unbuffered) (hbase : base.Accepts sent)
    (after : Nat → BufferedStream × σ → Exec (Bool × BufferedStream × σ)) (pieces : List (List UInt8))
    (fuel : Nat) {base_state : σ} (hsent : sent base_state bytes) :
    ∃ next, visit_all (send_chunk base) after (fuel + pieces.length) (s, base_state) pieces = after fuel (s, next) ∧
      sent next (bytes ++ pieces.flatten) := by
  induction pieces generalizing base_state bytes with
  | nil => exact ⟨base_state, by simp [visit_all], by simpa using hsent⟩
  | cons piece pieces ih =>
    obtain ⟨r, next, hwrite, hr, hnext⟩ := hs.write_accepted hbase hsent piece
    obtain ⟨last, hrest, hlast⟩ := ih hnext
    refine ⟨last, ?_, by simpa using hlast⟩
    rw [List.length_cons, ← Nat.add_assoc]
    simp [visit_all, send_chunk, hwrite, hr, hrest]

end Writer

namespace HttpListenerContext

variable {conn : Stream σ} {ctx : HttpListenerContext σ} {heap : Heap} {full : List Addr}
  {bytes data : List UInt8}

/-- Closing an open response sends it whole, over a connection that takes every
write. -/
theorem close_response_spec (hopened : ctx.m_response.m_is_opened = true) (hs : ctx.m_stream.Unbuffered)
    (hconn : conn.Accepts sent) (hsent : Socket.Open sent ctx.m_client.m_socket bytes)
    {status : Nat} (hstatus : status < 2 ^ 31) (hcode : ctx.m_response.m_status_code = Int32.ofNat status)
    (hholds : ctx.m_response.m_stream.m_chunk_buffer.Holds heap full data)
    (hend : heap.word ctx.m_response.m_stream.m_chunk_buffer.m_current_chunk = nullptr)
    {fuel : Nat} (hfuel : full.length + 1 < fuel) :
    ∃ next nextHeap, ctx.close_response conn heap fuel = ok (next, nextHeap) ∧
      Socket.Open sent next.m_client.m_socket
        (bytes ++ response_bytes status ctx.m_response.m_stream.m_chunk_buffer.get_total_size.toNat
          ctx.m_response.m_content_type data) := by
  have hbase := SocketStream.accepts hconn
  obtain ⟨w1, hline, hw1⟩ := write_status_line_spec
    (⟨rfl, rfl, hsent⟩ : StreamWriter.Wrote _ { m_s := ctx.m_stream, base_state := ctx.m_client.m_socket } _ _)
    hs hbase hstatus
  obtain ⟨w2, hflush, hw2⟩ := hw1.flush hs hbase
  obtain ⟨w3, hheaders, hw3⟩ := write_headers_spec hw2 hs hbase
    ctx.m_response.m_stream.m_chunk_buffer.get_total_size ctx.m_response.m_content_type
  obtain ⟨w4, hflush', hw4⟩ := hw3.flush hs hbase
  -- the walk over the chunks, and the end of the chain after it
  obtain ⟨more, rfl⟩ : ∃ more, fuel = more + 1 + (full.length + 1) := ⟨fuel - full.length - 2, by omega⟩
  obtain ⟨socket, hwalk, hsocket⟩ := send_chunks_spec hs hbase
    (fun fuel state => ChunkBufferEnumerator.walk heap (send_chunk (SocketStream conn))
      (fun state => (true, state)) fuel
      { m_chunk_buffer := ctx.m_response.m_stream.m_chunk_buffer, m_current_chunk := nullptr } state)
    (ctx.m_response.m_stream.m_chunk_buffer.pieces heap full) (more + 1) hw4.taken
  rw [ChunkBuffer.walk_end, ← hend, ChunkBuffer.length_pieces, ← hholds.walk_chain] at hwalk
  obtain ⟨last, hlast, hlastSent⟩ := hbase.flush _ _ hsocket
  obtain ⟨nextHeap, hdispose⟩ := hholds.dispose_eq hend (more + 1 + (full.length + 1))
  rw [if_neg (by omega)] at hdispose
  refine ⟨{ ctx with
    m_client := { m_socket := last }
    m_response.m_is_opened := false
    m_response.m_stream.m_chunk_buffer.m_first_chunk := nullptr
    m_response.m_stream.m_chunk_buffer.m_current_chunk := nullptr }, nextHeap, ?_, ?_⟩
  · simp [close_response, write_response, hopened, hcode, hline, hw1.no_error, hflush, hheaders,
      hw3.no_error, hflush', hw4.stream, hwalk, hs.flush_eq, hlast, hdispose, with_stream]
  · simpa only [hholds.flatten_pieces, response_bytes, kCrLf, List.append_assoc, List.cons_append,
      List.nil_append] using hlastSent

/-- The writes of a body are stored one behind the other. -/
theorem write_body_spec {allocator : Allocator} (hgrants : allocator.Grants) {P : Addr → Addr → Prop}
    (hwords : allocator.GivesWord P)
    (hstored : ctx.m_response.m_stream.m_chunk_buffer.Stored P 512 heap full data)
    {writes : List (List UInt8)} (hwrites : ∀ bytes ∈ writes, bytes.length < 2 ^ 32) {fuel : Nat}
    (hfuel : 2 * writes.flatten.length + 1 < fuel) :
    ∃ m_stream nextHeap nextFull,
      write_body allocator fuel ctx heap writes =
        ok ({ ctx with m_response.m_stream := m_stream }, nextHeap) ∧
      m_stream.m_chunk_buffer.Stored P 512 nextHeap nextFull (data ++ writes.flatten) := by
  induction writes generalizing ctx heap full data with
  | nil => exact ⟨ctx.m_response.m_stream, heap, full, rfl, by simpa using hstored⟩
  | cons bytes writes ih =>
    rw [List.flatten_cons, List.length_append] at hfuel
    obtain ⟨⟨r, cb, nextHeap⟩, hwrite, _⟩ := hstored.write_spec hwords (hwrites bytes (by simp)) fuel (by omega)
    obtain ⟨rfl, nextFull, hnext⟩ := hstored.write_ok hgrants hwords (hwrites bytes (by simp)) hwrite
    have hrest : ({ ctx with m_response.m_stream.m_chunk_buffer := cb } :
        HttpListenerContext σ).m_response.m_stream.m_chunk_buffer.Stored P 512 nextHeap nextFull
        (data ++ bytes) := hnext
    obtain ⟨m_stream, lastHeap, lastFull, hrest, hlast⟩ := ih hrest
      (fun other hother => hwrites other (by simp [hother])) (by omega)
    refine ⟨m_stream, lastHeap, lastFull, ?_, by simpa using hlast⟩
    simp [write_body, HttpListenerResponseStream.write, hwrite, hrest]

/-- An answer to the request of a context: a status code, the writes of the body
and the end of the response. -/
def respond (allocator : Allocator) (conn : Stream σ) (ctx : HttpListenerContext σ) (heap : Heap)
    (status_code : Int32) (writes : List (List UInt8)) (fuel : Nat) : Exec (HttpListenerContext σ × Heap) := do
  let (ctx, heap) ← write_body allocator fuel { ctx with m_response.m_status_code := status_code } heap writes
  ctx.close_response conn heap fuel

/-- With memory that is zero, the answer that is sent has what was in the buffer
and then the writes as its body. -/
theorem respond_spec {allocator : Allocator} (hgrants : allocator.Grants)
    (hzero : allocator.GivesWord fun _ link => link = nullptr)
    (hopened : ctx.m_response.m_is_opened = true) (hs : ctx.m_stream.Unbuffered)
    (hconn : conn.Accepts sent) (hsent : Socket.Open sent ctx.m_client.m_socket bytes) {status : Nat}
    (hstatus : status < 2 ^ 31)
    (hstored : ctx.m_response.m_stream.m_chunk_buffer.Stored (fun _ link => link = nullptr) 512 heap full data)
    {writes : List (List UInt8)} (hwrites : ∀ bytes ∈ writes, bytes.length < 2 ^ 32) {fuel : Nat}
    (hfuel : 2 * (data ++ writes.flatten).length + 2 ≤ fuel) :
    ∃ next nextHeap, ctx.respond allocator conn heap (Int32.ofNat status) writes fuel = ok (next, nextHeap) ∧
      Socket.Open sent next.m_client.m_socket
        (bytes ++ response_bytes status ((data ++ writes.flatten).length % 2 ^ 32) ctx.m_response.m_content_type
          (data ++ writes.flatten)) := by
  have hstart : ({ ctx with m_response.m_status_code := Int32.ofNat status } :
      HttpListenerContext σ).m_response.m_stream.m_chunk_buffer.Stored (fun _ link => link = nullptr) 512 heap full
      data := hstored
  rw [List.length_append] at hfuel
  obtain ⟨m_stream, bodyHeap, bodyFull, hbody, hbodyStored⟩ :=
    write_body_spec hgrants hzero hstart hwrites (by omega : 2 * writes.flatten.length + 1 < fuel)
  have hcount := hbodyStored.holds.length_full_le
  rw [List.length_append] at hcount
  have hfilled : ({ ctx with
      m_response := { ctx.m_response with m_status_code := Int32.ofNat status, m_stream } } :
      HttpListenerContext σ).m_response.m_is_opened = true := hopened
  obtain ⟨next, nextHeap, hclose, hresponse⟩ := close_response_spec hfilled hs hconn hsent hstatus rfl
    hbodyStored.holds hbodyStored.end_eq (by omega : bodyFull.length + 1 < fuel)
  refine ⟨next, nextHeap, by simp [respond, hbody, hclose], ?_⟩
  have htotal : m_stream.m_chunk_buffer.get_total_size.toNat = (data ++ writes.flatten).length % 2 ^ 32 := by
    rw [ChunkBuffer.get_total_size, hbodyStored.holds.total]
    rfl
  rw [← htotal]
  exact hresponse

end HttpListenerContext

end kfw.web
