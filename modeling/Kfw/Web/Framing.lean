import Kfw.Net.Wire
import Kfw.Web.Listener

open exec Result kfw.io kfw.net kfw.text

namespace kfw.web

open ConstStringRef

/-- A request as a client sends it: a request line with at least one space and
any number of header lines, none of them empty or over 1024 bytes, and no CR in
any of them. -/
structure Request where
  request_line : List UInt8
  headers : List (List UInt8)
  space_mem : 32 ∈ request_line
  header_ne_nil : ∀ header ∈ headers, header ≠ []
  cr_notMem : ∀ text ∈ request_line :: headers, 13 ∉ text
  length_le : ∀ text ∈ request_line :: headers, text.length ≤ 1024

/-- Header lines and the empty line after them, each with its CRLF. -/
def header_bytes (headers : List (List UInt8)) : List UInt8 :=
  headers.flatMap (· ++ kCrLf) ++ kCrLf

theorem header_bytes_cons_append (header : List UInt8) (headers : List (List UInt8)) (rest : List UInt8) :
    header_bytes (header :: headers) ++ rest = header ++ 13 :: 10 :: (header_bytes headers ++ rest) := by
  simp [header_bytes, kCrLf]

namespace Request

/-- The bytes of a request, up to the end of its empty line. -/
def bytes (request : Request) : List UInt8 :=
  request.request_line ++ kCrLf ++ header_bytes request.headers

/-- A header line with the name `Content-Length`, in any letter case. -/
def IsContentLength (header : List UInt8) : Prop :=
  58 ∈ header ∧ (trimmed (before 58 header)).map to_lower = (ascii "Content-Length").map to_lower

instance (header : List UInt8) : Decidable (IsContentLength header) := inferInstanceAs (Decidable (_ ∧ _))

/-- A request with one content length, the decimal number `length`. -/
structure Declares (request : Request) (length : Nat) : Prop where
  one : ∃ front header back, request.headers = front ++ header :: back ∧ IsContentLength header ∧
    (∀ other ∈ front ++ back, ¬ IsContentLength other) ∧ trimmed (after 58 header) ≠ [] ∧
    (∀ ch ∈ trimmed (after 58 header), IsDigit ch) ∧ digits_value (trimmed (after 58 header)) = length
  length_lt : length < 2 ^ 32

end Request

variable {σ : Type} {base : Stream σ} {pending : σ → List UInt8 → Prop} {capacity : Nat}

/-- The loop over the headers reads up to the end of the empty line and does not
change the content length; the induction is on the headers still ahead. -/
theorem read_headers_loop (hbase : base.Delivers pending) (buf : UInt8) {inner : Nat}
    {headers : List (List UInt8)} (hempty : ∀ header ∈ headers, header ≠ [])
    (htext : ∀ header ∈ headers, LineText header) (hlength : ∀ header ∈ headers, header.length ≤ capacity)
    (hinner : capacity + 3 ≤ inner) (state : HeaderReading σ) {content rest : List UInt8}
    (hline : state.line.Holds capacity content)
    (hunread : Unread pending state.s state.base_state (header_bytes headers ++ rest))
    (fuel : Nat) (hfuel : headers.length < fuel) :
    ∃ last, loop (read_header_pass base buf inner) fuel state = ok (kOk, last) ∧
      Unread pending last.s last.base_state rest ∧ last.content_length = state.content_length := by
  induction headers generalizing state content fuel with
  | nil =>
    obtain ⟨more, rfl⟩ : ∃ more, fuel = more + 1 := ⟨fuel - 1, by omega⟩
    obtain ⟨s, base_state, line, hread, hnext, hholds⟩ := LineText.nil.read_line_spec hbase hunread hline
      (Nat.zero_le _) buf (by simp only [List.length_nil]; omega : [].length + 3 ≤ inner)
    exact ⟨_, loop_done more (read_header_pass_end is_failed_kOk hread hholds), hnext, rfl⟩
  | cons header headers ih =>
    rw [List.length_cons] at hfuel
    obtain ⟨more, rfl⟩ : ∃ more, fuel = more + 1 := ⟨fuel - 1, by omega⟩
    have hfits := hlength header (by simp)
    rw [header_bytes_cons_append] at hunread
    obtain ⟨s, base_state, line, hread, hnext, hholds⟩ := (htext header (by simp)).read_line_spec hbase hunread hline
      hfits buf (by omega : header.length + 3 ≤ inner)
    obtain ⟨found, hpass⟩ := read_header_pass_line is_failed_kOk hread hholds (hempty header (by simp))
    rw [loop_cont more hpass]
    exact ih (fun other hother => hempty other (by simp [hother]))
      (fun other hother => htext other (by simp [hother]))
      (fun other hother => hlength other (by simp [hother])) _ hholds hnext more (by omega)

/-- The lines that `get_context` takes as the head of a request. -/
structure HeadLines (request_line : List UInt8) (headers : List (List UInt8)) : Prop where
  space_mem : 32 ∈ request_line
  header_ne_nil : ∀ header ∈ headers, header ≠ []
  lineText : ∀ text ∈ request_line :: headers, LineText text
  length_le : ∀ text ∈ request_line :: headers, text.length ≤ 1024

theorem Request.headLines (request : Request) : HeadLines request.request_line request.headers :=
  ⟨request.space_mem, request.header_ne_nil, fun text htext => lineText_of_notMem (request.cr_notMem text htext),
    request.length_le⟩

namespace HttpListener

variable {allocator : Allocator} {conn : Stream σ} {listener : HttpListener}

/-- Once it has a client, `get_context` reads the request into a buffer for lines. -/
theorem get_context_accepted (conn : Stream σ) (hgrants : allocator.Grants) (hstarted : listener.m_is_started)
    (hserver : listener.m_server.m_socket.m_context.isSome) {ctx : HttpListenerContext σ}
    (hcreated : ctx.m_is_created = false) (hclient : ctx.m_client.m_socket.m_context = none) (heap : Heap)
    (state : σ) :
    ∃ line, line.Holds 1024 [] ∧ ∀ buf fuel,
      listener.get_context allocator conn ctx heap (ERR_OK, state) buf fuel =
        read_request allocator conn { ctx with m_client := { m_socket := { m_context := some state } } }
          heap.asked.asked line buf fuel := by
  obtain ⟨line, hline, hholds⟩ := line_created hgrants heap
  have haccept := Socket.accept_granted hgrants hserver heap.asked hclient state
  refine ⟨line, hholds, fun buf fuel => ?_⟩
  simp [get_context, hstarted, hcreated, hline, TcpServer.accept_tcp_client, haccept]

/-- `get_context` reads a request up to the end of its empty line. -/
theorem get_context_head (hgrants : allocator.Grants) (hconn : conn.Delivers pending)
    (hstarted : listener.m_is_started) (hserver : listener.m_server.m_socket.m_context.isSome)
    {ctx : HttpListenerContext σ} (hcreated : ctx.m_is_created = false)
    (hclient : ctx.m_client.m_socket.m_context = none) (heap : Heap) {request_line rest : List UInt8}
    {headers : List (List UInt8)} (hlines : HeadLines request_line headers) {state : σ}
    (hunread : Unread (Socket.Open pending) ctx.attached { m_context := some state }
      (request_line ++ 13 :: 10 :: (header_bytes headers ++ rest)))
    (buf : UInt8) {fuel : Nat} (hfuel : headers.length + 1027 ≤ fuel) :
    ∃ next nextHeap, listener.get_context allocator conn ctx heap (ERR_OK, state) buf fuel =
        ok (kOk, next, nextHeap) ∧
      next.m_request.m_method = before 32 request_line ∧
      next.m_request.m_uri.m_raw_url = before 32 (after 32 request_line) ∧
      next.m_request.m_content_length = 0 ∧ next.m_request.m_stream.m_content_length = 0 ∧
      Unread (Socket.Open pending) next.m_stream next.m_client.m_socket rest := by
  have hbase := SocketStream.delivers hconn
  have hlength := hlines.length_le request_line (by simp)
  obtain ⟨line, hholds, hget⟩ := get_context_accepted conn hgrants hstarted hserver hcreated hclient heap state
  obtain ⟨bs, hbs⟩ : ∃ bs, ctx.attached = bs := ⟨_, rfl⟩
  have hattached : HttpListenerContext.attached
      { ctx with m_client := { m_socket := { m_context := some state } } } = bs := hbs
  rw [hbs] at hunread
  -- the request line
  obtain ⟨s, socket, line, hread, hunread, hholds⟩ := (hlines.lineText _ (by simp)).read_line_spec hbase hunread
    hholds hlength buf (by omega : request_line.length + 3 ≤ fuel)
  obtain ⟨parsed, hparse, hmethod, hurl, _⟩ := parse_request_line_spec hholds.to_ref (by omega) hlines.space_mem
  have hmethodLength := length_before_le 32 request_line
  have hurlLength := length_before_le 32 (after 32 request_line)
  have hafterLength := length_after_le 32 request_line
  have hmethodString := string_of_ref_granted hgrants heap.asked.asked hmethod (by omega)
  have hurlString := string_of_ref_granted hgrants heap.asked.asked.asked hurl (by omega)
  -- the headers and the response
  obtain ⟨last, hloop, hlast, hcontent⟩ := read_headers_loop hbase buf hlines.header_ne_nil
    (fun header hheader => hlines.lineText header (by simp [hheader]))
    (fun header hheader => hlines.length_le header (by simp [hheader]))
    (by omega : 1024 + 3 ≤ fuel) { s, base_state := socket, line } hholds hunread fuel (by omega)
  have htype := string_of_c_str_granted hgrants heap.asked.asked.asked.asked
    (by decide : (ascii "text/plain").length + 8 < 2 ^ 32)
  obtain ⟨stream, nextHeap, hcreate⟩ := HttpListenerResponseStream.create_total hgrants ctx.m_response.m_stream
    heap.asked.asked.asked.asked.asked
  refine ⟨{
    m_is_created := true
    m_client := { m_socket := last.base_state }
    m_stream := last.s
    m_buffer := ctx.m_buffer
    m_request := {
      m_method := before 32 request_line
      m_uri := { m_raw_url := before 32 (after 32 request_line) }
      m_content_length := last.content_length
      m_stream := .attach last.content_length }
    m_response := {
      m_is_opened := true
      m_status_code := 200
      m_content_type := ascii "text/plain"
      m_stream := stream } }, nextHeap, ?_, rfl, rfl, hcontent, hcontent, hlast⟩
  rw [hget]
  simp [read_request, hattached, hread, HttpListenerContext.with_stream, hparse, hmethodString, Uri.init, hurlString,
    hloop, htype, hcreate]

theorem get_context_fresh (hgrants : allocator.Grants) (hconn : conn.Delivers pending)
    (hstarted : listener.m_is_started) (hserver : listener.m_server.m_socket.m_context.isSome)
    (m_buffer : Vector UInt8 256) (heap : Heap) (request : Request) (rest : List UInt8) {state : σ}
    (hpending : pending state (request.bytes ++ rest)) (buf : UInt8) {fuel : Nat}
    (hfuel : request.headers.length + 1027 ≤ fuel) :
    ∃ ctx nextHeap, listener.get_context allocator conn (.fresh m_buffer) heap (ERR_OK, state) buf fuel =
        ok (kOk, ctx, nextHeap) ∧
      ctx.m_request.m_method = before 32 request.request_line ∧
      ctx.m_request.m_uri.m_raw_url = before 32 (after 32 request.request_line) ∧
      ctx.m_request.m_content_length = 0 ∧ ctx.m_request.m_stream.m_content_length = 0 ∧
      Unread (Socket.Open pending) ctx.m_stream ctx.m_client.m_socket rest := by
  refine get_context_head hgrants hconn hstarted hserver rfl rfl heap request.headLines ?_ buf hfuel
  refine ⟨[], _, (HttpListenerContext.attached_unused rfl).toBuffers, ⟨state, rfl, hpending⟩, ?_⟩
  simp [Request.bytes, kCrLf]

/-- Segmentation does not matter, and exactly the head of the request is
consumed: from a connection that delivers a request and then anything else, in
whatever pieces, `get_context` on a fresh context takes the method and the URL,
and what follows the empty line is what is left to read. -/
theorem get_context_reads_head (hgrants : allocator.Grants) (hconn : conn.Delivers pending)
    (hstarted : listener.m_is_started) (hserver : listener.m_server.m_socket.m_context.isSome)
    (m_buffer : Vector UInt8 256) (heap : Heap) (request : Request) (rest : List UInt8) {state : σ}
    (hpending : pending state (request.bytes ++ rest)) (buf : UInt8) :
    ∃ enough, ∀ fuel, enough ≤ fuel → ∃ ctx nextHeap,
      listener.get_context allocator conn (.fresh m_buffer) heap (ERR_OK, state) buf fuel =
        ok (kOk, ctx, nextHeap) ∧
      ctx.m_request.m_method = before 32 request.request_line ∧
      ctx.m_request.m_uri.m_raw_url = before 32 (after 32 request.request_line) ∧
      Unread (Socket.Open pending) ctx.m_stream ctx.m_client.m_socket rest := by
  refine ⟨request.headers.length + 1027, fun fuel hfuel => ?_⟩
  obtain ⟨ctx, nextHeap, hget, hmethod, hurl, _, _, hrest⟩ :=
    get_context_fresh hgrants hconn hstarted hserver m_buffer heap request rest hpending buf hfuel
  exact ⟨ctx, nextHeap, hget, hmethod, hurl, hrest⟩

/-- A listener that was created and started. -/
def serving : HttpListener := { m_server := { m_socket := { m_context := some () } }, m_is_started := true }

/-- A request whose line ends are split by the segments, and one more byte. -/
theorem get_context_reads_head_split :
    ∃ enough, ∀ fuel, enough ≤ fuel → ∃ ctx nextHeap,
      serving.get_context (.bump id) Wire.stream (.fresh (Vector.replicate 256 0)) .empty
          (ERR_OK, { segments := [ascii "GET / HTTP/1.1\r", ascii "\nHost: a\r\n\r", ascii "\nB"] }) 0 fuel =
        ok (kOk, ctx, nextHeap) ∧
      ctx.m_request.m_method = ascii "GET" ∧ ctx.m_request.m_uri.m_raw_url = ascii "/" ∧
      Unread (Socket.Open Wire.Pending) ctx.m_stream ctx.m_client.m_socket (ascii "B") :=
  get_context_reads_head (Allocator.bump_grants id) Wire.stream_delivers rfl rfl (Vector.replicate 256 0) .empty
    ⟨ascii "GET / HTTP/1.1", [ascii "Host: a"], by decide, by decide, by decide, by decide⟩ (ascii "B")
    (by decide) 0

/-- Body framing: a request that declares the length of its body is accepted
with that length, in the request and in the stream of its body, if and only if
the length is zero. -/
theorem content_length_iff (hgrants : allocator.Grants) (hconn : conn.Delivers pending)
    (hstarted : listener.m_is_started) (hserver : listener.m_server.m_socket.m_context.isSome)
    (m_buffer : Vector UInt8 256) (heap : Heap) {request : Request} {length : Nat}
    (hdeclares : request.Declares length) (rest : List UInt8) {state : σ}
    (hpending : pending state (request.bytes ++ rest)) (buf : UInt8) :
    (∃ enough, ∀ fuel, enough ≤ fuel → ∃ ctx nextHeap,
      listener.get_context allocator conn (.fresh m_buffer) heap (ERR_OK, state) buf fuel =
        ok (kOk, ctx, nextHeap) ∧
      ctx.m_request.m_content_length = UInt32.ofNat length ∧
      ctx.m_request.m_stream.m_content_length = UInt32.ofNat length) ↔
    length = 0 := by
  have hframe : ∀ fuel, request.headers.length + 1027 ≤ fuel → ∃ ctx nextHeap,
      listener.get_context allocator conn (.fresh m_buffer) heap (ERR_OK, state) buf fuel =
        ok (kOk, ctx, nextHeap) ∧
      ctx.m_request.m_content_length = 0 ∧ ctx.m_request.m_stream.m_content_length = 0 := by
    intro fuel hfuel
    obtain ⟨ctx, nextHeap, hget, _, _, hlength, hattached, _⟩ :=
      get_context_fresh hgrants hconn hstarted hserver m_buffer heap request rest hpending buf hfuel
    exact ⟨ctx, nextHeap, hget, hlength, hattached⟩
  constructor
  · rintro ⟨enough, hget⟩
    obtain ⟨ctx, nextHeap, hok, hlength, _⟩ :=
      hget (enough + (request.headers.length + 1027)) (Nat.le_add_right _ _)
    obtain ⟨ctx', nextHeap', hok', hzero, _⟩ :=
      hframe (enough + (request.headers.length + 1027)) (Nat.le_add_left _ _)
    rw [hok] at hok'
    cases hok'
    rw [hzero] at hlength
    have hmod := congrArg UInt32.toNat hlength
    rw [UInt32.toNat_ofNat_of_lt' hdeclares.length_lt] at hmod
    exact hmod.symm
  · rintro rfl
    exact ⟨request.headers.length + 1027, hframe⟩

/-- A request that says its body is empty. -/
theorem content_length_zero :
    ∃ enough, ∀ fuel, enough ≤ fuel → ∃ ctx nextHeap,
      serving.get_context (.bump id) Wire.stream (.fresh (Vector.replicate 256 0)) .empty
          (ERR_OK, { segments := [ascii "PUT / HTTP/1.1\r\ncontent-length: 0 \r\n\r\n"] }) 0 fuel =
        ok (kOk, ctx, nextHeap) ∧
      ctx.m_request.m_content_length = 0 ∧ ctx.m_request.m_stream.m_content_length = 0 :=
  (content_length_iff (Allocator.bump_grants id) Wire.stream_delivers rfl rfl (Vector.replicate 256 0) .empty
    (⟨⟨[], ascii "content-length: 0 ", [], rfl, by decide, by decide, by decide, by decide +kernel, rfl⟩,
      by decide⟩ :
      Request.Declares ⟨ascii "PUT / HTTP/1.1", [ascii "content-length: 0 "], by decide, by decide, by decide,
        by decide⟩ 0) [] (by decide) 0).mpr rfl

/-- A request that announces a body of one byte. -/
def one_byte_request : Request where
  request_line := ascii "PUT / HTTP/1.1"
  headers := [ascii "Content-Length: 1"]
  space_mem := by decide
  header_ne_nil := by decide
  cr_notMem := by decide
  length_le := by decide

/-- The body of one byte is there, but the context is given out with a content
length of zero. -/
theorem content_length_lost :
    one_byte_request.Declares 1 ∧
    Wire.Pending { segments := [ascii "PUT / HTTP/1.1\r\nContent-Length: 1\r\n\r\nB"] }
      (one_byte_request.bytes ++ ascii "B") ∧
    ∀ fuel, 1028 ≤ fuel → ∃ ctx nextHeap,
      serving.get_context (.bump id) Wire.stream (.fresh (Vector.replicate 256 0)) .empty
          (ERR_OK, { segments := [ascii "PUT / HTTP/1.1\r\nContent-Length: 1\r\n\r\nB"] }) 0 fuel =
        ok (kOk, ctx, nextHeap) ∧
      ctx.m_request.m_content_length = 0 ∧ ctx.m_request.m_stream.m_content_length = 0 := by
  refine ⟨⟨⟨[], ascii "Content-Length: 1", [], rfl, by decide, by decide, by decide, by decide +kernel, rfl⟩,
    by decide⟩, by decide, fun fuel hfuel => ?_⟩
  have hpending : Wire.Pending { segments := [ascii "PUT / HTTP/1.1\r\nContent-Length: 1\r\n\r\nB"] }
      (one_byte_request.bytes ++ ascii "B") := by decide
  obtain ⟨ctx, nextHeap, hget, _, _, hlength, hattached, _⟩ := get_context_fresh (Allocator.bump_grants id)
    Wire.stream_delivers (rfl : serving.m_is_started = true) rfl (Vector.replicate 256 0) .empty one_byte_request
    (ascii "B") hpending 0 hfuel
  exact ⟨ctx, nextHeap, hget, hlength, hattached⟩

end HttpListener

end kfw.web
