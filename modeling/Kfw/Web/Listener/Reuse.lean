import Kfw.Web.Framing
import Kfw.Web.Lockstep
import Kfw.Web.ReadLine.Broken

open exec Result kfw.io kfw.net kfw.text kfw.ConstStringRef

namespace kfw.web

variable {σ : Type} {pending : σ → List UInt8 → Prop}

/-- The loop over the headers comes back only from complete lines that fit, the last of
them empty; the induction is on its passes. -/
theorem Unread.read_headers_inv {base : Stream σ} {capacity inner : Nat} (hbase : base.BreaksOff pending)
    {buf : UInt8} {fuel : Nat} {state last : HeaderReading σ} {bytes content : List UInt8} {r : ret_t}
    (hunread : Unread pending state.s state.base_state bytes) (hline : state.line.Holds capacity content)
    (hloop : loop (read_header_pass base buf inner) fuel state = ok (r, last)) :
    r = kOk ∧ ∃ headers rest, bytes = header_bytes headers ++ rest ∧
      ∀ header ∈ headers, header ≠ [] ∧ LineText header ∧ header.length ≤ capacity := by
  induction fuel generalizing state bytes content with
  | zero => cases hloop
  | succ fuel ih =>
    cases hread : read_line base state.s state.base_state state.line buf inner with
    | fail error => simp [loop, read_header_pass, hread] at hloop
    | div => simp [loop, read_header_pass, hread] at hloop
    | ok answer =>
      obtain ⟨r', s, base_state, line⟩ := answer
      obtain ⟨text, rest, rfl, htext, hlength, rfl, hnext, hholds⟩ := hunread.read_line_inv hbase hline hread
      by_cases hempty : text = []
      · subst hempty
        rw [loop_done fuel (read_header_pass_end is_failed_kOk hread hholds)] at hloop
        cases hloop
        exact ⟨rfl, [], rest, rfl, fun header hheader => absurd hheader List.not_mem_nil⟩
      · obtain ⟨found, hpass⟩ := read_header_pass_line is_failed_kOk hread hholds hempty
        rw [loop_cont fuel hpass] at hloop
        obtain ⟨hr, headers, more, hmore, hheaders⟩ := ih hnext hholds hloop
        refine ⟨hr, text :: headers, more, by rw [header_bytes_cons_append, hmore], fun header hheader => ?_⟩
        rcases List.mem_cons.mp hheader with rfl | hheader
        · exact ⟨hempty, htext, hlength⟩
        · exact hheaders header hheader

/-- From other bytes it does not come back: it writes outside the buffer of the line. -/
theorem Unread.read_headers_fault {base : Stream σ} {capacity inner : Nat} (hbase : base.BreaksOff pending)
    {buf : UInt8} {fuel : Nat} {state : HeaderReading σ} {bytes content : List UInt8}
    (hunread : Unread pending state.s state.base_state bytes) (hline : state.line.Holds capacity content)
    (hinner : bytes.length + 2 * capacity + 6 ≤ inner) (hfuel : bytes.length < fuel)
    (hother : ∀ headers rest, bytes = header_bytes headers ++ rest →
      ¬ ∀ header ∈ headers, header ≠ [] ∧ LineText header ∧ header.length ≤ capacity) :
    loop (read_header_pass base buf inner) fuel state = fail .invalid_access := by
  induction fuel generalizing state bytes content with
  | zero => omega
  | succ fuel ih =>
    by_cases hbegins : BeginsWithLine capacity bytes
    · obtain ⟨text, rest, rfl, htext, hroom⟩ := hbegins
      rw [List.length_append, List.length_cons, List.length_cons] at hinner hfuel
      obtain ⟨s, base_state, line, hread, hnext, hholds⟩ := htext.read_line_spec hbase.delivers hunread hline hroom buf
        (by omega : text.length + 3 ≤ inner)
      have hempty : text ≠ [] := by
        rintro rfl
        exact hother [] rest rfl fun header hheader => absurd hheader List.not_mem_nil
      obtain ⟨found, hpass⟩ := read_header_pass_line is_failed_kOk hread hholds hempty
      rw [loop_cont fuel hpass]
      refine ih hnext hholds (by omega) (by omega) fun headers more hmore hheaders => ?_
      refine hother (text :: headers) more (by rw [header_bytes_cons_append, hmore]) fun header hheader => ?_
      rcases List.mem_cons.mp hheader with rfl | hheader
      · exact ⟨hempty, htext, hroom⟩
      · exact hheaders header hheader
    · simp [loop, read_header_pass, hunread.read_line_faults hbase hline hbegins buf hinner]

/-- Bytes that begin with the whole head of a request. -/
def BeginsWithHead (bytes : List UInt8) : Prop :=
  ∃ request_line headers rest, HeadLines request_line headers ∧
    bytes = request_line ++ 13 :: 10 :: (header_bytes headers ++ rest)

/-- Bytes that begin with a line that fits and has no space. -/
def BeginsWithoutSpace (bytes : List UInt8) : Prop :=
  ∃ text rest, LineText text ∧ text.length ≤ 1024 ∧ 32 ∉ text ∧ bytes = text ++ 13 :: 10 :: rest

/-- Two answers of `get_context` with one error, or with one request, on one connection. -/
structure SameRequest (x y : ret_t × HttpListenerContext σ × Heap) : Prop where
  ret : x.1 = y.1
  client : x.2.1.m_client = y.2.1.m_client
  method : x.1 = kOk → x.2.1.m_request.m_method = y.2.1.m_request.m_method
  uri : x.1 = kOk → x.2.1.m_request.m_uri = y.2.1.m_request.m_uri

/-- A context without a connection, on which `get_context` does what it does on a fresh one. -/
structure HttpListenerContext.Usable (ctx : HttpListenerContext σ) : Prop where
  closed : ctx.m_client.m_socket.m_context = none
  as_fresh : ∀ (allocator : Allocator) (conn : Stream σ), allocator.Grants → conn.ReturnsAtMost →
    ∀ (listener : HttpListener) (m_buffer : Vector UInt8 256) (heap : Heap) (accepted : Int × σ) (buf : UInt8)
      (fuel : Nat), (listener.get_context allocator conn ctx heap accepted buf fuel).Rel SameRequest
        (listener.get_context allocator conn (.fresh m_buffer) heap accepted buf fuel)

/-- What a fresh context has in its buffer does not matter. -/
theorem HttpListenerContext.fresh_usable (m_buffer : Vector UInt8 256) :
    (HttpListenerContext.fresh m_buffer : HttpListenerContext σ).Usable where
  closed := rfl
  as_fresh := by
    intro allocator conn hgrants hconn listener other heap accepted buf fuel
    have halike : ContextAlike (.fresh m_buffer : HttpListenerContext σ) (.fresh other) :=
      ⟨rfl, rfl, [], attached_unused rfl, attached_unused rfl⟩
    refine (get_context_rel hgrants hconn halike heap heap listener accepted buf fuel).mono fun x y hserved => ?_
    exact ⟨hserved.ret, hserved.context.client, hserved.method, hserved.uri⟩

theorem beginsWithHead_of_lines {text : List UInt8} {headers : List (List UInt8)} (htext : LineText text)
    (hlength : text.length ≤ 1024) (hspace : 32 ∈ text)
    (hheaders : ∀ header ∈ headers, header ≠ [] ∧ LineText header ∧ header.length ≤ 1024) (rest : List UInt8) :
    BeginsWithHead (text ++ 13 :: 10 :: (header_bytes headers ++ rest)) := by
  refine ⟨text, headers, rest, ⟨hspace, fun header hheader => (hheaders header hheader).1, ?_, ?_⟩, rfl⟩
  · exact List.forall_mem_cons.mpr ⟨htext, fun header hheader => (hheaders header hheader).2.1⟩
  · exact List.forall_mem_cons.mpr ⟨hlength, fun header hheader => (hheaders header hheader).2.2⟩

namespace HttpListener

variable {allocator : Allocator} {conn : Stream σ} {listener : HttpListener} {ctx : HttpListenerContext σ}

/-- A context with an open client gets no other: the next connection is refused. -/
theorem get_context_client_open (hstarted : listener.m_is_started)
    (hserver : listener.m_server.m_socket.m_context.isSome) (hcreated : ctx.m_is_created = false)
    (hclient : ctx.m_client.m_socket.m_context.isSome) (heap : Heap) (accepted : Int × σ) (buf : UInt8)
    (fuel : Nat) :
    ∃ nextHeap, listener.get_context allocator conn ctx heap accepted buf fuel = ok (kEArgument, ctx, nextHeap) := by
  have hfailed : is_failed kEArgument = true := by decide
  have hnotCreated : ¬ ctx.m_is_created = true := by
    rw [hcreated]
    decide
  have haccept : Socket.accept allocator listener.m_server.m_socket (StringBuffer.create allocator heap 1024).2
      ctx.m_client.m_socket accepted =
        (kEArgument, ctx.m_client.m_socket, (StringBuffer.create allocator heap 1024).2) := by
    simp [Socket.accept, Option.isSome_iff_ne_none.mp hserver, hclient]
  refine ⟨(StringBuffer.create allocator heap 1024).2, ?_⟩
  rw [get_context, if_neg (not_not.mpr hstarted), if_neg hnotCreated]
  simp only [TcpServer.accept_tcp_client, haccept, if_pos hfailed]

/-- `get_context` comes back, with a request or with an error after which the context can be
used for the next connection. -/
def LeavesUsable (allocator : Allocator) (conn : Stream σ) (listener : HttpListener) (ctx : HttpListenerContext σ)
    (heap : Heap) (accepted : Int × σ) (buf : UInt8) : Prop :=
  ∃ fuel r next nextHeap, listener.get_context allocator conn ctx heap accepted buf fuel = ok (r, next, nextHeap) ∧
    (is_failed r = true → next.Usable)

/-- A request line without a space is refused; the client stays open, with what follows the
line left to read. -/
theorem read_request_no_space (hconn : conn.BreaksOff pending) {heap : Heap} {line : StringBuffer}
    {content text rest : List UInt8} (hline : line.Holds 1024 content)
    (hunread : Unread (Socket.Open pending) ctx.attached ctx.m_client.m_socket (text ++ 13 :: 10 :: rest))
    (htext : LineText text) (hlength : text.length ≤ 1024) (hspace : 32 ∉ text) (buf : UInt8) {fuel : Nat}
    (hfuel : text.length + 3 ≤ fuel) :
    ∃ bs socket, read_request allocator conn ctx heap line buf fuel =
        ok (kEFormat, ctx.with_stream bs socket, heap) ∧ Unread (Socket.Open pending) bs socket rest := by
  have hbase := (SocketStream.breaksOff hconn).delivers
  obtain ⟨bs, socket, line, hread, hrest, hholds⟩ := htext.read_line_spec hbase hunread hline hlength buf hfuel
  refine ⟨bs, socket, ?_, hrest⟩
  have hfailed : is_failed kEFormat = true := by decide
  simp [read_request, hread, parse_request_line_none hholds.to_ref hspace, hfailed]

/-- From a connection whose first line has a space, only a request comes back. -/
theorem read_request_spaced (hconn : conn.BreaksOff pending) {heap nextHeap : Heap} {line : StringBuffer}
    {content text rest : List UInt8} (hline : line.Holds 1024 content)
    (hunread : Unread (Socket.Open pending) ctx.attached ctx.m_client.m_socket (text ++ 13 :: 10 :: rest))
    (htext : LineText text) (hlength : text.length ≤ 1024) (hspace : 32 ∈ text) {buf : UInt8} {fuel : Nat}
    {r : ret_t} {next : HttpListenerContext σ}
    (h : read_request allocator conn ctx heap line buf fuel = ok (r, next, nextHeap)) :
    r = kOk ∧ BeginsWithHead (text ++ 13 :: 10 :: rest) := by
  have hbase := SocketStream.breaksOff hconn
  obtain ⟨⟨r1, bs, socket, line1⟩, hread, h⟩ := bind_eq_ok_iff.mp h
  obtain ⟨bs', socket', line', hspec, hrest, hholds⟩ := htext.read_line_spec hbase.delivers hunread hline hlength buf
    (Nat.le_add_right (text.length + 3) fuel)
  rw [read_line_more hread] at hspec
  cases hspec
  obtain ⟨parsed, hparse, -⟩ := parse_request_line_spec hholds.to_ref (by omega) hspace
  simp only [hparse, bind_ok, is_failed_kOk, Bool.false_eq_true, if_false] at h
  obtain ⟨⟨m_method, heap1⟩, -, h⟩ := bind_eq_ok_iff.mp h
  obtain ⟨⟨r2, m_uri, heap2⟩, -, h⟩ := bind_eq_ok_iff.mp h
  obtain ⟨⟨r3, last⟩, hloop, h⟩ := bind_eq_ok_iff.mp h
  obtain ⟨rfl, headers, more, rfl, hheaders⟩ := Unread.read_headers_inv hbase hrest hholds hloop
  simp only [is_failed_kOk, Bool.false_eq_true, if_false] at h
  obtain ⟨⟨m_content_type, heap3⟩, -, h⟩ := bind_eq_ok_iff.mp h
  obtain ⟨⟨r4, m_stream, heap4⟩, -, h⟩ := bind_eq_ok_iff.mp h
  cases h
  exact ⟨rfl, beginsWithHead_of_lines htext hlength hspace hheaders more⟩

/-- From any other bytes nothing comes back: `read_line` writes outside the buffer of the
line. -/
theorem read_request_faults (hgrants : allocator.Grants) (hconn : conn.BreaksOff pending) (heap : Heap)
    {line : StringBuffer} {content bytes : List UInt8} (hline : line.Holds 1024 content)
    (hunread : Unread (Socket.Open pending) ctx.attached ctx.m_client.m_socket bytes)
    (hhead : ¬ BeginsWithHead bytes) (hnoSpace : ¬ BeginsWithoutSpace bytes) (buf : UInt8) {fuel : Nat}
    (hfuel : bytes.length + 2054 ≤ fuel) :
    read_request allocator conn ctx heap line buf fuel = fail .invalid_access := by
  have hbase := SocketStream.breaksOff hconn
  by_cases hbegins : BeginsWithLine 1024 bytes
  · obtain ⟨text, rest, rfl, htext, hlength⟩ := hbegins
    rw [List.length_append, List.length_cons, List.length_cons] at hfuel
    have hspace : 32 ∈ text := by
      by_contra hspace
      exact hnoSpace ⟨text, rest, htext, hlength, hspace, rfl⟩
    obtain ⟨bs, socket, line', hread, hrest, hholds⟩ := htext.read_line_spec hbase.delivers hunread hline hlength buf
      (by omega : text.length + 3 ≤ fuel)
    obtain ⟨parsed, hparse, hmethod, hurl, -⟩ := parse_request_line_spec hholds.to_ref (by omega) hspace
    have hmethodLength := length_before_le 32 text
    have hurlLength := length_before_le 32 (after 32 text)
    have hafterLength := length_after_le 32 text
    have hmethodString := string_of_ref_granted hgrants heap hmethod (by omega)
    have hurlString := string_of_ref_granted hgrants heap.asked hurl (by omega)
    have hloop : loop (read_header_pass (SocketStream conn) buf fuel) fuel
        { s := bs, base_state := socket, line := line' } = fail .invalid_access := by
      refine Unread.read_headers_fault hbase hrest hholds (by omega) (by omega) fun headers more hmore hheaders => ?_
      rw [hmore] at hhead
      exact hhead (beginsWithHead_of_lines htext hlength hspace hheaders more)
    simp [read_request, hread, hparse, hmethodString, Uri.init, hurlString, hloop]
  · simp [read_request, hunread.read_line_faults hbase hline hbegins buf (by omega : _ ≤ fuel)]

/-- What comes back from a connection is a request, or the error of a request line without
a space with the client still open. -/
theorem read_request_inv (hconn : conn.BreaksOff pending) {heap nextHeap : Heap} {line : StringBuffer}
    {content bytes : List UInt8} (hline : line.Holds 1024 content)
    (hunread : Unread (Socket.Open pending) ctx.attached ctx.m_client.m_socket bytes) {buf : UInt8} {fuel : Nat}
    {r : ret_t} {next : HttpListenerContext σ}
    (h : read_request allocator conn ctx heap line buf fuel = ok (r, next, nextHeap)) :
    r = kOk ∧ BeginsWithHead bytes ∨
      r = kEFormat ∧ BeginsWithoutSpace bytes ∧ next.m_client.m_socket.m_context.isSome := by
  have hbase := SocketStream.breaksOff hconn
  obtain ⟨⟨r1, bs, socket, line1⟩, hread, hresult⟩ := bind_eq_ok_iff.mp h
  obtain ⟨text, rest, rfl, htext, hlength, rfl, hrest, hholds⟩ := hunread.read_line_inv hbase hline hread
  by_cases hspace : 32 ∈ text
  · exact .inl (read_request_spaced hconn hline hunread htext hlength hspace h)
  · have hfailed : is_failed kEFormat = true := by decide
    simp only [is_failed_kOk, Bool.false_eq_true, if_false, parse_request_line_none hholds.to_ref hspace, bind_ok,
      if_pos hfailed] at hresult
    cases hresult
    obtain ⟨-, -, -, ⟨state, hopen, -⟩, -⟩ := hrest
    exact .inr ⟨rfl, ⟨text, rest, htext, hlength, hspace, rfl⟩, Option.isSome_iff_exists.mpr ⟨state, hopen⟩⟩

section LeavesUsable

variable {unread bytes : List UInt8} {state : σ} {heap : Heap} {buf : UInt8}

theorem LeavesUsable.beginsWithHead (h : listener.LeavesUsable allocator conn ctx heap (ERR_OK, state) buf)
    (hgrants : allocator.Grants) (hconn : conn.BreaksOff pending) (hstarted : listener.m_is_started)
    (hserver : listener.m_server.m_socket.m_context.isSome) (hcreated : ctx.m_is_created = false)
    (hclient : ctx.m_client.m_socket.m_context = none) (hstream : ctx.attached.Buffers unread)
    (hpending : pending state bytes) : BeginsWithHead (unread ++ bytes) := by
  obtain ⟨fuel, r, next, nextHeap, hget, husable⟩ := h
  obtain ⟨line, hline, hrequest⟩ := get_context_accepted conn hgrants hstarted hserver hcreated hclient heap state
  rw [hrequest] at hget
  have hunread : Unread (Socket.Open pending) ctx.attached { m_context := some state } (unread ++ bytes) :=
    ⟨unread, bytes, hstream, ⟨state, rfl, hpending⟩, rfl⟩
  rcases read_request_inv hconn hline hunread hget with ⟨-, hhead⟩ | ⟨rfl, -, hopen⟩
  · exact hhead
  · have hclosed := (husable (by decide)).closed
    rw [hclosed] at hopen
    cases hopen

/-- After a failure the context is never usable: `get_context` leaves it so exactly when the
connection gives the whole head of a request, and nothing fails. -/
theorem leavesUsable_iff (hgrants : allocator.Grants) (hconn : conn.BreaksOff pending)
    (hstarted : listener.m_is_started) (hserver : listener.m_server.m_socket.m_context.isSome)
    (hcreated : ctx.m_is_created = false) (hclient : ctx.m_client.m_socket.m_context = none)
    (hstream : ctx.attached.Buffers unread) (hpending : pending state bytes) :
    listener.LeavesUsable allocator conn ctx heap (ERR_OK, state) buf ↔ BeginsWithHead (unread ++ bytes) := by
  constructor
  · intro husable
    exact husable.beginsWithHead hgrants hconn hstarted hserver hcreated hclient hstream hpending
  · rintro ⟨request_line, headers, rest, hlines, hbytes⟩
    have hunread : Unread (Socket.Open pending) ctx.attached { m_context := some state }
        (request_line ++ 13 :: 10 :: (header_bytes headers ++ rest)) :=
      ⟨unread, bytes, hstream, ⟨state, rfl, hpending⟩, hbytes⟩
    obtain ⟨next, nextHeap, hget, -⟩ := get_context_head hgrants hconn.delivers hstarted hserver hcreated hclient heap
      hlines hunread buf (Nat.le_refl _)
    exact ⟨_, kOk, next, nextHeap, hget, fun hfailed => absurd hfailed (by decide)⟩

end LeavesUsable

/-- A request of one line, with a byte behind it. -/
theorem leavesUsable_get :
    serving.LeavesUsable (.bump id) Wire.stream (.fresh (Vector.replicate 256 0)) .empty
      (ERR_OK, Wire.whole (ascii "GET / HTTP/1.1\r\n\r\nB")) 0 := by
  refine (leavesUsable_iff (Allocator.bump_grants id) Wire.stream_breaksOff rfl rfl rfl rfl
    (HttpListenerContext.attached_unused rfl).toBuffers (Wire.whole_pending _)).mpr ?_
  refine ⟨ascii "GET / HTTP/1.1", [], ascii "B", ⟨by decide, by decide, fun text htext => ?_, by decide⟩, by decide⟩
  rw [List.mem_singleton.mp htext]
  exact lineText_of_notMem (by decide)

/-- A request line without a space, and then a good request: the first client stays open, so
the context that failed refuses the second one, which a fresh context serves. -/
theorem not_leavesUsable_no_space :
    ¬ serving.LeavesUsable (.bump id) Wire.stream (.fresh (Vector.replicate 256 0)) .empty
      (ERR_OK, Wire.whole (ascii "A\r\n")) 0 ∧
    (serving.get_context (.bump id) Wire.stream (.fresh (Vector.replicate 256 0)) .empty
      (ERR_OK, Wire.whole (ascii "A\r\n")) 0 9 >>= fun failed =>
      serving.get_context (.bump id) Wire.stream failed.2.1 failed.2.2
        (ERR_OK, Wire.whole (ascii "A \r\n\r\n")) 0 9 >>= fun again =>
      ok (failed.1, failed.2.1.m_client.m_socket.m_context.isSome, again.1)) = ok (kEFormat, true, kEArgument) ∧
    (serving.get_context (.bump id) Wire.stream (.fresh (Vector.replicate 256 0)) .empty
      (ERR_OK, Wire.whole (ascii "A \r\n\r\n")) 0 9 >>= fun answer => ok answer.1) = ok kOk := by
  refine ⟨fun husable => ?_, by decide +kernel, by decide +kernel⟩
  obtain ⟨request_line, headers, rest, hlines, hbytes⟩ := husable.beginsWithHead (Allocator.bump_grants id)
    Wire.stream_breaksOff rfl rfl rfl rfl (HttpListenerContext.attached_unused rfl).toBuffers (Wire.whole_pending _)
  have hspace : (32 : UInt8) ∈ [] ++ ascii "A\r\n" := by
    rw [hbytes]
    exact List.mem_append_left _ hlines.space_mem
  exact absurd hspace (by decide)

end HttpListener

end kfw.web
