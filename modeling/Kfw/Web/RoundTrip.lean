import Kfw.Web.Response
import Kfw.Web.Session

open exec Result kfw.io kfw.net kfw.text

namespace kfw.web

open ConstStringRef

/-- What a reader gets from the head of a response. -/
structure ResponseHead where
  http_version : List UInt8
  status : List UInt8
  reason : List UInt8
  headers : List (List UInt8 × List UInt8)

variable {σ : Type}

/-- Where the reader stands in the headers. -/
structure HeadReading (σ : Type) where
  s : BufferedStream
  base_state : σ
  line : StringBuffer
  headers : List (List UInt8 × List UInt8) := []

/-- Read one header line with the functions of the framework, up to the empty
line. -/
def read_back_header (base : Stream σ) (buf : UInt8) (fuel : Nat) (state : HeadReading σ) :
    Exec (Flow (HeadReading σ) (ret_t × HeadReading σ)) := do
  let (r, s, base_state, line) ← read_line base state.s state.base_state state.line buf fuel
  let state := { state with s, base_state, line }
  if is_failed r then ok (.done (r, state))
  else if line.get_length = 0 then ok (.done (kOk, state))
  else do
    let (r, key, val) ← parse_http_header line
    if is_failed r then ok (.done (r, state))
    else ok (.cont { state with headers := state.headers ++ [(key.chars, val.chars)] })

/-- Read the head of a response: its first line with `parse_request_line`, and
its headers. -/
def read_back (base : Stream σ) (s : BufferedStream) (base_state : σ) (line : StringBuffer) (buf : UInt8)
    (fuel : Nat) : Exec (ret_t × ResponseHead × BufferedStream × σ) := do
  let (r, s, base_state, line) ← read_line base s base_state line buf fuel
  if is_failed r then ok (r, ⟨[], [], [], []⟩, s, base_state)
  else do
    let (r, first) ← parse_request_line line.to_ref
    let head : ResponseHead := ⟨first.method.chars, first.url.chars, first.http_version.chars, []⟩
    if is_failed r then ok (r, head, s, base_state)
    else do
      let (r, state) ← loop (read_back_header base buf fuel) fuel { s, base_state, line }
      ok (r, { head with headers := state.headers }, state.s, state.base_state)

/-- However the bytes of a response are split into reads, its head reads back as
`head`, and what is left is `body`. -/
def ReadsBackAs (fuel : Nat) (response : List UInt8) (head : ResponseHead) (body : List UInt8) : Prop :=
  ∀ (σ : Type) (base : Stream σ) (pending : σ → List UInt8 → Prop) (s : BufferedStream) (base_state : σ)
    (line : StringBuffer) (content : List UInt8) (buf : UInt8), base.Delivers pending →
    Unread pending s base_state response → line.Holds 1024 content →
    ∃ s' base_state', read_back base s base_state line buf fuel = ok (kOk, head, s', base_state') ∧
      Unread pending s' base_state' body

variable {base : Stream σ} {pending : σ → List UInt8 → Prop}

/-- Header lines that each have a colon read back as the parts around it; the
induction is on the lines still ahead. -/
theorem read_back_headers (hbase : base.Delivers pending) (buf : UInt8) {inner : Nat}
    (hinner : 1027 ≤ inner) {lines : List (List UInt8)} (hcolon : ∀ text ∈ lines, 58 ∈ text)
    (hcr : ∀ text ∈ lines, 13 ∉ text) (hlength : ∀ text ∈ lines, text.length ≤ 1024)
    (state : HeadReading σ) {content rest : List UInt8} (hline : state.line.Holds 1024 content)
    (hunread : Unread pending state.s state.base_state (header_bytes lines ++ rest)) (fuel : Nat)
    (hfuel : lines.length < fuel) :
    ∃ last, loop (read_back_header base buf inner) fuel state = ok (kOk, last) ∧
      Unread pending last.s last.base_state rest ∧
      last.headers = state.headers ++
        lines.map fun text => (trimmed (before 58 text), trimmed (after 58 text)) := by
  induction lines generalizing state content fuel with
  | nil =>
    obtain ⟨more, rfl⟩ : ∃ more, fuel = more + 1 := ⟨fuel - 1, by omega⟩
    obtain ⟨s, base_state, line, hread, hnext, hholds⟩ := read_line_spec hbase (List.not_mem_nil) hunread hline
      (Nat.zero_le _) buf (by simp only [List.length_nil]; omega : [].length + 3 ≤ inner)
    have hempty : line.get_length = 0 := hholds.get_length_eq_zero_iff.mpr rfl
    have hpass : read_back_header base buf inner state = ok (.done (kOk, { state with s, base_state, line })) := by
      simp [read_back_header, hread, hempty]
    exact ⟨_, loop_done more hpass, hnext, by simp⟩
  | cons text lines ih =>
    rw [List.length_cons] at hfuel
    obtain ⟨more, rfl⟩ : ∃ more, fuel = more + 1 := ⟨fuel - 1, by omega⟩
    have hfits := hlength text (by simp)
    rw [header_bytes_cons_append] at hunread
    obtain ⟨s, base_state, line, hread, hnext, hholds⟩ := read_line_spec hbase (hcr text (by simp)) hunread hline
      hfits buf (by omega : text.length + 3 ≤ inner)
    obtain ⟨key, val, hparse, hkey, hval⟩ := parse_http_header_spec hholds (hcolon text (by simp))
    have hempty : line.get_length ≠ 0 := by
      intro hzero
      have hnil := hholds.get_length_eq_zero_iff.mp hzero
      exact absurd (hcolon text (by simp)) (by simp [hnil])
    have hpass : read_back_header base buf inner state = ok (.cont {
        s, base_state, line
        headers := state.headers ++ [(trimmed (before 58 text), trimmed (after 58 text))] }) := by
      simp [read_back_header, hread, hempty, hparse, hkey.chars_eq, hval.chars_eq]
    obtain ⟨last, hloop, hlast, hheaders⟩ := ih (fun other hother => hcolon other (by simp [hother]))
      (fun other hother => hcr other (by simp [hother])) (fun other hother => hlength other (by simp [hother]))
      { s, base_state, line, headers := state.headers ++ [(trimmed (before 58 text), trimmed (after 58 text))] }
      hholds hnext more (by omega)
    refine ⟨last, ?_, hlast, ?_⟩
    · rw [loop_cont more hpass, hloop]
    · simp [hheaders]

/-- A first line with a space and header lines with a colon read back. -/
theorem readsBackAs_of_lines {text : List UInt8} (hspace : 32 ∈ text) (htext : 13 ∉ text)
    (hfits : text.length ≤ 1024) {lines : List (List UInt8)} (hcolon : ∀ text ∈ lines, 58 ∈ text)
    (hcr : ∀ text ∈ lines, 13 ∉ text) (hlength : ∀ text ∈ lines, text.length ≤ 1024) (body : List UInt8)
    {fuel : Nat} (hfuel : lines.length + 1027 ≤ fuel) :
    ReadsBackAs fuel (text ++ 13 :: 10 :: (header_bytes lines ++ body))
      ⟨before 32 text, before 32 (after 32 text), after 32 (after 32 text),
        lines.map fun text => (trimmed (before 58 text), trimmed (after 58 text))⟩ body := by
  intro σ base pending s base_state line content buf hbase hunread hline
  obtain ⟨s1, base_state1, line1, hread, hnext, hholds⟩ := read_line_spec hbase htext hunread hline hfits buf
    (by omega : text.length + 3 ≤ fuel)
  obtain ⟨parsed, hparse, hversion, hstatus, hreason, _⟩ :=
    parse_request_line_spec hholds.to_ref (by omega) hspace
  obtain ⟨last, hloop, hlast, hheaders⟩ := read_back_headers hbase buf (by omega : 1027 ≤ fuel) hcolon hcr hlength
    { s := s1, base_state := base_state1, line := line1 } hholds hnext fuel (by omega)
  refine ⟨last.s, last.base_state, ?_, hlast⟩
  simp [read_back, hread, hparse, hloop, hheaders, hversion.chars_eq, hstatus.chars_eq, hreason.chars_eq]

theorem decimal_notMem {ch : UInt8} (hch : ¬ IsDigit ch) (n : Nat) : ch ∉ decimal n :=
  fun hmem => hch (decimal_isDigit n ch hmem)

theorem HttpUtil.get_status_code_text_plain (status_code : Int32) :
    13 ∉ get_status_code_text status_code ∧ (get_status_code_text status_code).length ≤ 21 := by
  unfold get_status_code_text
  split <;> decide

/-- The head that a response reads back as. -/
def response_head (status length : Nat) (content_type : List UInt8) : ResponseHead where
  http_version := ascii "HTTP/1.1"
  status := decimal status
  reason := HttpUtil.get_status_code_text (Int32.ofNat status)
  headers := [(ascii "Content-Length", decimal length), (ascii "Content-Type", content_type),
    (ascii "Connection", ascii "close")]

theorem status_line_eq (status : Nat) :
    status_line status = ascii "HTTP/1.1" ++
      32 :: (decimal status ++ 32 :: HttpUtil.get_status_code_text (Int32.ofNat status)) := rfl

theorem content_length_line_eq (length : Nat) :
    ascii "Content-Length: " ++ decimal length = ascii "Content-Length" ++ 58 :: (32 :: decimal length) := rfl

theorem status_line_plain {status : Nat} (hstatus : status < 2 ^ 31) :
    32 ∈ status_line status ∧ 13 ∉ status_line status ∧ (status_line status).length ≤ 1024 := by
  obtain ⟨hreason, hreasonLength⟩ := HttpUtil.get_status_code_text_plain (Int32.ofNat status)
  have hcode := (decimal_length_le (by decide : 0 < 10)).mpr (by omega : status < 10 ^ 10)
  have hversion : 13 ∉ ascii "HTTP/1.1" ∧ (ascii "HTTP/1.1").length = 8 := by decide
  have hdigits := decimal_notMem (by decide : ¬ IsDigit 13) status
  rw [status_line_eq]
  refine ⟨by simp, by simp [hversion.1, hdigits, hreason], ?_⟩
  simp only [List.length_append, List.length_cons, hversion.2]
  omega

theorem response_headers_plain {length : Nat} (hlength : length < 2 ^ 32) :
    ∀ text ∈ response_headers length (ascii "text/plain"), 58 ∈ text ∧ 13 ∉ text ∧ text.length ≤ 1024 := by
  have hcount := (decimal_length_le (by decide : 0 < 10)).mpr (by omega : length < 10 ^ 10)
  have hname : 13 ∉ ascii "Content-Length" ∧ (ascii "Content-Length").length = 14 := by decide
  have hdigits := decimal_notMem (by decide : ¬ IsDigit 13) length
  intro text htext
  simp only [response_headers, List.mem_cons, List.not_mem_nil, or_false] at htext
  rcases htext with rfl | rfl | rfl
  · rw [content_length_line_eq]
    refine ⟨by simp, by simp [hname.1, hdigits], ?_⟩
    simp only [List.length_append, List.length_cons, hname.2]
    omega
  · decide
  · decide

/-- A response of plain text reads back. -/
theorem response_bytes_readsBackAs {status length : Nat} (hstatus : status < 2 ^ 31)
    (hlength : length < 2 ^ 32) (body : List UInt8) {fuel : Nat} (hfuel : 1030 ≤ fuel) :
    ReadsBackAs fuel (response_bytes status length (ascii "text/plain") body)
      (response_head status length (ascii "text/plain")) body := by
  obtain ⟨hspace, hcr, hfits⟩ := status_line_plain hstatus
  have hheaders := response_headers_plain hlength
  have hread := readsBackAs_of_lines hspace hcr hfits (fun text htext => (hheaders text htext).1)
    (fun text htext => (hheaders text htext).2.1) (fun text htext => (hheaders text htext).2.2) body hfuel
  -- the parts of the first line, and the value of the first header
  obtain ⟨hversion, hrest⟩ := before_append (by decide : 32 ∉ ascii "HTTP/1.1")
  obtain ⟨hcode, hreason⟩ := before_append (decimal_notMem (by decide : ¬ IsDigit 32) status)
  obtain ⟨hkey, hval⟩ := before_append (by decide : 58 ∉ ascii "Content-Length")
  have hdigits : trimmed (32 :: decimal length) = decimal length := by
    rw [trimmed_cons_blank, trimmed_of_notMem (decimal_notMem (by decide : ¬ IsDigit 32) length)]
  have hname : trimmed (ascii "Content-Length") = ascii "Content-Length" := by decide
  rw [status_line_eq, hversion, hrest, hcode, hreason, ← status_line_eq] at hread
  simp only [response_headers, List.map_cons, List.map_nil] at hread
  rw [content_length_line_eq, hkey, hval, hdigits, hname, ← content_length_line_eq] at hread
  exact hread

/-- Bytes read back with one rest only. -/
theorem ReadsBackAs.unique {fuel : Nat} {response : List UInt8} {head head' : ResponseHead}
    {body body' : List UInt8} (h : ReadsBackAs fuel response head body)
    (h' : ReadsBackAs fuel response head' body') : body = body' := by
  obtain ⟨line, _, hline⟩ := line_created (Allocator.bump_grants id) .empty
  have hbuffers := (HttpListenerContext.attached_unused
    (rfl : (HttpListenerContext.fresh (Vector.replicate 256 0) : HttpListenerContext Wire).m_stream =
      {})).toBuffers
  have hunread : Unread Wire.Pending _ (Wire.whole response) response :=
    ⟨[], response, hbuffers, Wire.whole_pending response, rfl⟩
  obtain ⟨s, wire, hread, hrest⟩ := h _ _ _ _ _ line [] 0 Wire.stream_delivers hunread hline
  obtain ⟨s', wire', hread', hrest'⟩ := h' _ _ _ _ _ line [] 0 Wire.stream_delivers hunread hline
  rw [hread] at hread'
  cases hread'
  exact hrest.unique (fun _ _ _ hmore hmore' => hmore.2.symm.trans hmore'.2) hrest'

namespace HttpListenerContext

/-- The response with these writes, over a connection that has sent `before`:
what `close` sends reads back with the status line, a content length that is
the number of bytes written, and the bytes written as its body. -/
def ReadsBack (allocator : Allocator) (conn : Stream σ) (sent : σ → List UInt8) (ctx : HttpListenerContext σ)
    (heap : Heap) (before : List UInt8) (status : Nat) (writes : List (List UInt8)) : Prop :=
  ∃ enough, ∀ fuel, enough ≤ fuel → ∃ closed closedHeap response headers length,
    ctx.respond allocator conn heap (Int32.ofNat status) writes fuel = ok (closed, closedHeap) ∧
    Socket.Open (fun state bytes => sent state = bytes) closed.m_client.m_socket (before ++ response) ∧
    ReadsBackAs fuel response
      ⟨ascii "HTTP/1.1", decimal status, HttpUtil.get_status_code_text (Int32.ofNat status), headers⟩
      writes.flatten ∧
    (ascii "Content-Length", length) ∈ headers ∧
    UInt32.parse (.of_c_str length) = ok (kOk, UInt32.ofNat writes.flatten.length)

variable {allocator : Allocator} {conn : Stream σ}

/-- An open response with `left` in its buffer: what is sent for it has `left` in
front of the writes. -/
theorem readsBack_iff (hgrants : allocator.Grants)
    (hzero : allocator.GivesWord fun _ link => link = nullptr) {sent : σ → List UInt8}
    (hconn : conn.Accepts fun state bytes => sent state = bytes) {ctx : HttpListenerContext σ}
    {heap : Heap} (hs : ctx.m_stream.Unbuffered) (hopened : ctx.m_response.m_is_opened = true)
    (htype : ctx.m_response.m_content_type = ascii "text/plain") {full : List Addr}
    {left before : List UInt8}
    (hstored : ctx.m_response.m_stream.m_chunk_buffer.Stored (fun _ link => link = nullptr) 512 heap full left)
    (hsent : Socket.Open (fun state bytes => sent state = bytes) ctx.m_client.m_socket before)
    {status : Nat} (hstatus : status < 2 ^ 31) {writes : List (List UInt8)}
    (hbody : writes.flatten.length < 2 ^ 32) :
    ctx.ReadsBack allocator conn sent heap before status writes ↔ left = [] := by
  have hwrites : ∀ bytes ∈ writes, bytes.length < 2 ^ 32 := fun bytes hbytes =>
    Nat.lt_of_le_of_lt (List.sublist_flatten_of_mem hbytes).length_le hbody
  have hresponse : ∀ fuel, 2 * (left ++ writes.flatten).length + 1030 ≤ fuel → ∃ closed closedHeap,
      ctx.respond allocator conn heap (Int32.ofNat status) writes fuel = ok (closed, closedHeap) ∧
      Socket.Open (fun state bytes => sent state = bytes) closed.m_client.m_socket
        (before ++ response_bytes status ((left ++ writes.flatten).length % 2 ^ 32) (ascii "text/plain")
          (left ++ writes.flatten)) := by
    intro fuel hfuel
    rw [← htype]
    exact respond_spec hgrants hzero hopened hs hconn hsent hstatus hstored hwrites (by omega)
  constructor
  · rintro ⟨enough, hreadsBack⟩
    have henough : enough ≤ enough + (2 * (left ++ writes.flatten).length + 1030) := Nat.le_add_right _ _
    obtain ⟨closed, closedHeap, response, headers, length, hrespond, hopen, hbytes, _⟩ := hreadsBack _ henough
    obtain ⟨closed', closedHeap', hrespond', hopen'⟩ := hresponse _ (Nat.le_add_left _ _)
    rw [hrespond] at hrespond'
    cases hrespond'
    -- what was sent is determined, and with it the body
    obtain ⟨state, hstate, hsame⟩ := hopen
    obtain ⟨state', hstate', hsame'⟩ := hopen'
    obtain rfl : state = state' := Option.some.inj (hstate.symm.trans hstate')
    obtain rfl := List.append_cancel_left (hsame.symm.trans hsame')
    have hbody := hbytes.unique (response_bytes_readsBackAs hstatus (Nat.mod_lt _ (by decide)) _ (by omega))
    exact List.append_left_eq_self.mp hbody.symm
  · rintro rfl
    refine ⟨2 * ([] ++ writes.flatten).length + 1030, fun fuel hfuel => ?_⟩
    obtain ⟨closed, closedHeap, hrespond, hopen⟩ := hresponse fuel hfuel
    rw [List.nil_append, Nat.mod_eq_of_lt hbody] at hopen
    refine ⟨closed, closedHeap, _, _, decimal writes.flatten.length, hrespond, hopen,
      response_bytes_readsBackAs hstatus hbody writes.flatten (by omega), by simp, ?_⟩
    have hcount := (decimal_length_le (by decide : 0 < 10)).mpr (by omega : writes.flatten.length < 10 ^ 10)
    rw [UInt32.parse_digits (refers_of_c_str (by omega)) (decimal_ne_nil _) (decimal_isDigit _),
      digits_value_decimal]

section Opened

variable {m_buffer : Vector UInt8 256} {heap : Heap} {fuel : Nat} {history : List (ContextCall σ)}
  {session : Session σ} {listener : HttpListener} {accepted : Int × σ} {buf : UInt8} {openFuel : Nat}
  {opened : HttpListenerContext σ} {openedHeap : Heap}

/-- The response that `get_context` opens on a context, whatever was called on it
before. -/
theorem opened_of_calls {P : Addr → Addr → Prop} (hgrants : allocator.Grants)
    (hwords : allocator.GivesWord P) (hreads : conn.ReturnsAtMost)
    (hhistory : steps (Session.call allocator conn fuel) { ctx := .fresh m_buffer, heap } history = ok session)
    (hopen : listener.get_context allocator conn session.ctx session.heap accepted buf openFuel =
      ok (kOk, opened, openedHeap)) :
    opened.m_stream.Unbuffered ∧ opened.m_response.m_is_opened = true ∧
      opened.m_response.m_content_type = ascii "text/plain" ∧
      ∃ full left, opened.m_response.m_stream.m_chunk_buffer.Stored P 512 openedHeap full left ∧
        (session.body.IsEmpty ↔ left = []) := by
  have hkept := Session.kept_of_calls hgrants hwords hreads hhistory
  obtain ⟨left, hleft⟩ := hkept.body
  have hserved := (get_context_rel hgrants hreads hkept.alike session.heap session.heap listener accepted buf
    openFuel).of_ok hopen hopen
  obtain ⟨hattached, hopened, _, htype, full, hstored⟩ :=
    Session.stored_of_answered hgrants hleft hserved.left_answered
  obtain ⟨unread, hstream, _⟩ := hserved.context.stream
  have hs : opened.m_stream.Unbuffered := attached_eq hattached ▸ hstream.unbuffered
  exact ⟨hs, hopened, htype, full, left, hstored, hleft.isEmpty_iff⟩

/-- A response that `get_context` opened, on any context and whatever was called
on it before, reads back as the framework's own functions read it, if and only if
the buffer of the response had nothing in it. -/
theorem response_reads_back_iff (hgrants : allocator.Grants)
    (hzero : allocator.GivesWord fun _ link => link = nullptr) (hreads : conn.ReturnsAtMost)
    {sent : σ → List UInt8} (hconn : conn.Accepts fun state bytes => sent state = bytes)
    (hhistory : steps (Session.call allocator conn fuel) { ctx := .fresh m_buffer, heap } history = ok session)
    (hopen : listener.get_context allocator conn session.ctx session.heap accepted buf openFuel =
      ok (kOk, opened, openedHeap)) {before : List UInt8}
    (hsent : Socket.Open (fun state bytes => sent state = bytes) opened.m_client.m_socket before)
    {status : Nat} (hstatus : status < 2 ^ 31) {writes : List (List UInt8)}
    (hbody : writes.flatten.length < 2 ^ 32) :
    opened.ReadsBack allocator conn sent openedHeap before status writes ↔ session.body.IsEmpty := by
  obtain ⟨hs, hopened, htype, full, left, hstored, hempty⟩ := opened_of_calls hgrants hzero hreads hhistory hopen
  rw [hempty]
  exact readsBack_iff hgrants hzero hconn hs hopened htype hstored hsent hstatus hbody

end Opened

/-- The first response of a context. -/
theorem response_reads_back_first :
    ∃ opened heap, HttpListener.serving.get_context (.bump fun _ => nullptr) Wire.stream
        (.fresh (Vector.replicate 256 0)) .empty (ERR_OK, { segments := [ascii "B \r\n\r\n"] }) 0 12 =
        ok (kOk, opened, heap) ∧
      opened.ReadsBack (.bump fun _ => nullptr) Wire.stream Wire.sent heap [] 404 [[7], [8, 9]] := by
  have hrun : (HttpListener.serving.get_context (.bump fun _ => nullptr) Wire.stream
      (.fresh (Vector.replicate 256 0)) .empty (ERR_OK, { segments := [ascii "B \r\n\r\n"] }) 0 12 >>=
      fun (r, opened, _) => ok (r, opened.m_client.m_socket.m_context)) =
      ok (kOk, some { segments := [] }) := by decide +kernel
  obtain ⟨⟨r, opened, heap⟩, hopen, hresult⟩ := bind_eq_ok_iff.mp hrun
  obtain ⟨rfl, hsocket⟩ := Prod.mk.inj (ok.inj hresult)
  have hunused : steps (Session.call (.bump fun _ => nullptr) Wire.stream 0)
      { ctx := .fresh (Vector.replicate 256 0), heap := .empty } [] =
      ok { ctx := .fresh (Vector.replicate 256 0), heap := .empty } := rfl
  exact ⟨opened, heap, hopen, (response_reads_back_iff (Allocator.bump_grants _)
    (Allocator.bump_givesWord fun _ => rfl) Wire.stream_returnsAtMost Wire.stream_accepts hunused hopen
    ⟨_, hsocket, rfl⟩ (by decide) (by decide)).mpr (by decide)⟩

/-- A context that is disposed with one byte written and the response not closed:
the next response, to which nothing is written, is sent with that byte. -/
theorem response_sends_leftover :
    ∃ session opened heap, steps (Session.call (.bump fun _ => nullptr) Wire.stream 12)
        { ctx := .fresh (Vector.replicate 256 0), heap := .empty }
        [.get_context HttpListener.serving (ERR_OK, { segments := [ascii "A \r\n\r\n"] }) 0,
          .write (ascii "X") (by decide), .dispose] = ok session ∧
      HttpListener.serving.get_context (.bump fun _ => nullptr) Wire.stream session.ctx session.heap
        (ERR_OK, { segments := [ascii "B \r\n\r\n"] }) 0 12 = ok (kOk, opened, heap) ∧
      (opened.respond (.bump fun _ => nullptr) Wire.stream heap 200 [] 12 >>= fun (closed, _) =>
        ok closed.m_client.m_socket.m_context) =
        ok (some { segments := [], sent := response_bytes 200 1 (ascii "text/plain") (ascii "X") }) ∧
      ¬ opened.ReadsBack (.bump fun _ => nullptr) Wire.stream Wire.sent heap [] 200 [] := by
  have hrun : (steps (Session.call (.bump fun _ => nullptr) Wire.stream 12)
      { ctx := .fresh (Vector.replicate 256 0), heap := .empty }
      [.get_context HttpListener.serving (ERR_OK, { segments := [ascii "A \r\n\r\n"] }) 0,
        .write (ascii "X") (by decide), .dispose] >>= fun session =>
      HttpListener.serving.get_context (.bump fun _ => nullptr) Wire.stream session.ctx session.heap
        (ERR_OK, { segments := [ascii "B \r\n\r\n"] }) 0 12 >>= fun (r, opened, heap) =>
      ok (decide session.body.IsEmpty, r, opened.m_client.m_socket.m_context,
        opened.respond (.bump fun _ => nullptr) Wire.stream heap 200 [] 12 >>= fun (closed, _) =>
          (ok closed.m_client.m_socket.m_context : Exec _))) =
      ok (false, kOk, some { segments := [] },
        ok (some { segments := [], sent := response_bytes 200 1 (ascii "text/plain") (ascii "X") })) := by
    decide +kernel
  obtain ⟨session, hsession, hrest⟩ := bind_eq_ok_iff.mp hrun
  obtain ⟨⟨r, opened, heap⟩, hopen, hresult⟩ := bind_eq_ok_iff.mp hrest
  simp only [ok.injEq, Prod.mk.injEq] at hresult
  obtain ⟨hempty, rfl, hsocket, hresponse⟩ := hresult
  refine ⟨session, opened, heap, hsession, hopen, hresponse, fun hreadsBack => ?_⟩
  have hgrants := Allocator.bump_grants fun _ => nullptr
  have hzero : (Allocator.bump fun _ => nullptr).GivesWord fun _ link => link = nullptr :=
    Allocator.bump_givesWord fun _ => rfl
  obtain ⟨hs, hopened, htype, full, left, hstored, hleft⟩ :=
    opened_of_calls hgrants hzero Wire.stream_returnsAtMost hsession hopen
  have hnil := (readsBack_iff hgrants hzero Wire.stream_accepts hs hopened htype hstored ⟨_, hsocket, rfl⟩
    (by decide) (by decide)).mp hreadsBack
  exact absurd (hleft.mpr hnil) (of_decide_eq_false hempty)

end HttpListenerContext

end kfw.web
