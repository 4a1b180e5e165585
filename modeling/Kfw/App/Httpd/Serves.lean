import Kfw.App.Httpd.Run
import Kfw.Web.Listener.Reuse
import Kfw.Web.RoundTrip

open exec Result kfw.io kfw.net kfw.web

namespace kfw

open machine

/-- The writes that make the page with a time. -/
def DateTime.texts (dt : DateTime) : List (List UInt8) :=
  [decimal dt.m_year.val.toNat, ascii "/", decimal dt.m_month.val.toNat, ascii "/", decimal dt.m_day.val.toNat,
    ascii " ", decimal dt.m_hour.val.toNat, ascii ":", decimal dt.m_min.val.toNat, ascii ":",
    decimal dt.m_sec.val.toNat]

/-- The page with a time. -/
def DateTime.page (dt : DateTime) : List UInt8 := dt.texts.flatten

theorem DateTime.byte_bounds (n : Num IntType.uint8) : 0 ≤ n.val ∧ n.val < 256 := n.in_range

theorem DateTime.year_bounds (n : Num IntType.uint16) : 0 ≤ n.val ∧ n.val < 65536 := n.in_range

theorem DateTime.length_page_le (dt : DateTime) : dt.page.length ≤ 512 := by
  have hdigits : ∀ n : Nat, n < 2 ^ 32 → (decimal n).length ≤ 10 := fun n hn => decimal_length_of_lt hn
  have hyear := hdigits dt.m_year.val.toNat (by have := year_bounds dt.m_year; omega)
  have hmonth := hdigits dt.m_month.val.toNat (by have := byte_bounds dt.m_month; omega)
  have hday := hdigits dt.m_day.val.toNat (by have := byte_bounds dt.m_day; omega)
  have hhour := hdigits dt.m_hour.val.toNat (by have := byte_bounds dt.m_hour; omega)
  have hmin := hdigits dt.m_min.val.toNat (by have := byte_bounds dt.m_min; omega)
  have hsec := hdigits dt.m_sec.val.toNat (by have := byte_bounds dt.m_sec; omega)
  have hmark : ∀ mark ∈ ["/", " ", ":"], (ascii mark).length = 1 := by decide
  simp only [page, texts, List.flatten_cons, List.flatten_nil, List.length_append, List.length_nil,
    hmark "/" (by simp), hmark " " (by simp), hmark ":" (by simp)]
  omega

namespace web.HttpListenerContext

variable {σ : Type} {allocator : Allocator} {conn : Stream σ} {fuel : Nat} {ctx next : HttpListenerContext σ}
  {heap nextHeap start : Heap} {P : Addr → Addr → Prop}

theorem put_int32_eq (allocator : Allocator) (fuel : Nat) (ctx : HttpListenerContext σ) (heap : Heap) {value : Int}
    (hvalue : 0 ≤ value ∧ value < 65536) :
    ctx.put_int32 allocator fuel heap (Int32.ofInt value) = ctx.put allocator fuel heap (decimal value.toNat) := by
  obtain ⟨n, rfl⟩ := Int.eq_ofNat_of_zero_le hvalue.1
  have htext := Int32.to_string_spec (by omega : n < 2 ^ 31)
  rw [← Int32.ofInt_eq_ofNat] at htext
  simp [put_int32, htext]

theorem write_body_cons (allocator : Allocator) (fuel : Nat) (ctx : HttpListenerContext σ) (heap : Heap)
    (bytes : List UInt8) (writes : List (List UInt8)) :
    write_body allocator fuel ctx heap (bytes :: writes) =
      ctx.put allocator fuel heap bytes >>= fun (ctx, heap) => write_body allocator fuel ctx heap writes := by
  rw [write_body, put]
  cases ctx.m_response.m_stream.write allocator heap bytes fuel <;> rfl

/-- The last write of a body. -/
theorem write_body_last (allocator : Allocator) (fuel : Nat) (ctx : HttpListenerContext σ) (heap : Heap)
    (bytes : List UInt8) : write_body allocator fuel ctx heap [bytes] = ctx.put allocator fuel heap bytes := rfl

theorem put_time_eq (allocator : Allocator) (fuel : Nat) (ctx : HttpListenerContext σ) (heap : Heap) (dt : DateTime) :
    ctx.put_time allocator fuel heap dt = write_body allocator fuel ctx heap dt.texts := by
  have hbyte : ∀ (ctx : HttpListenerContext σ) (heap : Heap) (n : Num IntType.uint8),
      ctx.put_int32 allocator fuel heap (Int32.ofInt n.val) =
        ctx.put allocator fuel heap (decimal n.val.toNat) := fun ctx heap n =>
    put_int32_eq allocator fuel ctx heap ⟨(DateTime.byte_bounds n).1, by have := DateTime.byte_bounds n; omega⟩
  have hyear := fun (ctx : HttpListenerContext σ) heap =>
    put_int32_eq allocator fuel ctx heap (DateTime.year_bounds dt.m_year)
  simp only [put_time, DateTime.texts, DateTime.get_year, DateTime.get_month, DateTime.get_day,
    DateTime.get_hour, DateTime.get_min, DateTime.get_sec, hbyte, hyear, write_body_last,
    write_body_cons _ _ _ _ _ (_ :: _)]

/-- Of the chunks in the heap, the response has those that are not in `start`; the chain of
its chunks ends, and is short. -/
structure Owns (start : Heap) (ctx : HttpListenerContext σ) (heap : Heap) : Prop where
  chunks : ctx.m_response.m_stream.m_chunk_buffer.Owns (fun _ _ => True) start heap
  ends : ctx.m_response.m_stream.m_chunk_buffer.m_first_chunk ≠ nullptr →
    heap.word ctx.m_response.m_stream.m_chunk_buffer.m_current_chunk = nullptr
  short : ∀ fuel, 2 ≤ fuel → ∃ cb freed, ctx.m_response.m_stream.m_chunk_buffer.dispose heap fuel = ok (cb, freed)

theorem owns_of_vacant (hvacant : ctx.m_response.m_stream.m_chunk_buffer.Vacant) (hlive : heap.live = start.live) :
    ctx.Owns start heap where
  chunks := .inl ⟨hvacant, hlive⟩
  ends := fun hfirst => absurd hvacant.first_eq hfirst
  short := fun fuel _ => ⟨_, heap, by rw [ChunkBuffer.dispose, if_pos hvacant.first_eq]⟩

theorem givesWord_true (allocator : Allocator) : allocator.GivesWord fun _ _ => True := fun _ _ _ _ _ => trivial

theorem write_body_chunks (howns : ctx.m_response.m_stream.m_chunk_buffer.Owns (fun _ _ => True) start heap)
    {writes : List (List UInt8)} (hwrites : ∀ bytes ∈ writes, bytes.length < 2 ^ 32)
    (hbody : write_body allocator fuel ctx heap writes = ok (next, nextHeap)) :
    next.m_response.m_stream.m_chunk_buffer.Owns (fun _ _ => True) start nextHeap := by
  induction writes generalizing ctx heap with
  | nil =>
    cases hbody
    exact howns
  | cons bytes writes ih =>
    obtain ⟨⟨r, m_stream, heap1⟩, hwrite, hrest⟩ := bind_eq_ok_iff.mp hbody
    refine ih ?_ (fun other hother => hwrites other (by simp [hother])) hrest
    exact HttpListenerResponseStream.write_owns howns (givesWord_true allocator) (hwrites bytes (by simp)) hwrite

theorem Owns.close_response (h : ctx.Owns start heap)
    (hclose : ctx.close_response conn heap fuel = ok (next, nextHeap)) : next.Owns start nextHeap := by
  rcases close_response_stream hclose with ⟨hstream, rfl⟩ | hdispose
  · obtain ⟨hchunks, hends, hshort⟩ := h
    rw [← hstream] at hchunks hends hshort
    exact ⟨hchunks, hends, hshort⟩
  · obtain ⟨hlive, hvacant⟩ := h.chunks.dispose h.ends hdispose
    exact owns_of_vacant hvacant hlive

/-- The destructor closes the client and gives all chunks back. -/
theorem Owns.destroy (h : ctx.Owns start heap) (hfuel : 2 ≤ fuel) :
    ∃ next nextHeap, ctx.destroy heap fuel = ok (ctx.m_client.m_socket.closes, next, nextHeap) ∧
      nextHeap.live = start.live := by
  obtain ⟨cb, freed, hdispose⟩ := h.short fuel hfuel
  obtain ⟨next, hdestroy, -⟩ := destroy_of_dispose hdispose
  exact ⟨next, freed, hdestroy, (h.chunks.dispose h.ends hdispose).1⟩

variable {sent : σ → List UInt8 → Prop}

/-- A response that was just opened over an empty buffer, on a connection to which nothing
was sent. -/
structure Opened (sent : σ → List UInt8 → Prop) (start : Heap) (ctx : HttpListenerContext σ) (heap : Heap) : Prop where
  unbuffered : ctx.m_stream.Unbuffered
  is_opened : ctx.m_response.m_is_opened = true
  content_type : ctx.m_response.m_content_type = ascii "text/plain"
  stored : ctx.m_response.m_stream.m_chunk_buffer.Stored (fun _ _ => True) 512 heap [] []
  chunks : ctx.m_response.m_stream.m_chunk_buffer.Owns (fun _ _ => True) start heap
  unsent : Socket.Open sent ctx.m_client.m_socket []

/-- A body that fits in one chunk is sent whole, whatever the memory of the chunk held. -/
theorem Opened.respond (h : ctx.Opened sent start heap) (hgrants : allocator.Grants) (hconn : conn.Accepts sent)
    {status : Nat} (hstatus : status < 2 ^ 31) {writes : List (List UInt8)} (hshort : writes.flatten.length ≤ 512)
    (hfuel : 1026 ≤ fuel) :
    ∃ next nextHeap, ctx.respond allocator conn heap (Int32.ofNat status) writes fuel = ok (next, nextHeap) ∧
      next.Owns start nextHeap ∧ Socket.Open sent next.m_client.m_socket
        (response_bytes status writes.flatten.length (ascii "text/plain") writes.flatten) := by
  have hwrites : ∀ bytes ∈ writes, bytes.length < 2 ^ 32 := by
    intro bytes hbytes
    have hle := (List.sublist_flatten_of_mem hbytes).length_le
    omega
  have hstored : ({ ctx with m_response.m_status_code := Int32.ofNat status } :
      HttpListenerContext σ).m_response.m_stream.m_chunk_buffer.Stored (fun _ _ => True) 512 heap [] [] := h.stored
  have hchunks : ({ ctx with m_response.m_status_code := Int32.ofNat status } :
      HttpListenerContext σ).m_response.m_stream.m_chunk_buffer.Owns (fun _ _ => True) start heap := h.chunks
  obtain ⟨m_stream, bodyHeap, full, hbody, hnext⟩ := write_body_spec hgrants (givesWord_true allocator) hstored
    hwrites (by omega : 2 * writes.flatten.length + 1 < fuel)
  rw [List.nil_append] at hnext
  obtain rfl := hnext.full_eq_nil hshort
  have hend : bodyHeap.word m_stream.m_chunk_buffer.m_current_chunk = nullptr :=
    (hnext.ends.resolve_right fun hlinked => hlinked.1 rfl).2
  have hfilled : ({ ctx with
      m_response := { ctx.m_response with m_status_code := Int32.ofNat status, m_stream } } :
      HttpListenerContext σ).m_response.m_is_opened = true := h.is_opened
  obtain ⟨next, nextHeap, hclose, hresponse⟩ := close_response_spec hfilled h.unbuffered hconn h.unsent hstatus rfl
    hnext.holds hend (by simp only [List.length_nil]; omega : ([] : List Addr).length + 1 < fuel)
  refine ⟨next, nextHeap, by simp [HttpListenerContext.respond, hbody, hclose], ?_, ?_⟩
  · refine Owns.close_response ⟨write_body_chunks hchunks hwrites hbody, fun _ => hend, fun fuel hfuel => ?_⟩ hclose
    obtain ⟨freed, hdispose⟩ := hnext.holds.dispose_eq hend fuel
    rw [List.length_nil, if_neg (by omega)] at hdispose
    exact ⟨_, freed, hdispose⟩
  · have htotal : m_stream.m_chunk_buffer.get_total_size.toNat = writes.flatten.length := by
      rw [ChunkBuffer.get_total_size, hnext.holds.total]
      exact Nat.mod_eq_of_lt (by omega)
    simpa only [List.nil_append, htotal, h.content_type] using hresponse

end web.HttpListenerContext

namespace app

open ConstStringRef

/-- What the service sends to a client from which `bytes` come, by the time it looks at the
clock: the page if the URL is `/`, an error for another one, and nothing if the request line
has no space. -/
inductive Answers (now_time : DateTime) : List UInt8 → List UInt8 → Prop
  | page {request_line rest : List UInt8} {headers : List (List UInt8)} (hlines : HeadLines request_line headers)
      (hurl : before 32 (after 32 request_line) = ascii "/") :
      Answers now_time (request_line ++ 13 :: 10 :: (header_bytes headers ++ rest))
        (response_bytes 200 now_time.page.length (ascii "text/plain") now_time.page)
  | not_found {request_line rest : List UInt8} {headers : List (List UInt8)} (hlines : HeadLines request_line headers)
      (hurl : before 32 (after 32 request_line) ≠ ascii "/") :
      Answers now_time (request_line ++ 13 :: 10 :: (header_bytes headers ++ rest))
        (response_bytes 404 0 (ascii "text/plain") [])
  | refused {text rest : List UInt8} (htext : LineText text) (hlength : text.length ≤ 1024) (hspace : 32 ∉ text) :
      Answers now_time (text ++ 13 :: 10 :: rest) []

/-- The listener of the service is started, and its socket is open. -/
structure Httpd.Listens (httpd : Httpd) : Prop where
  started : httpd.m_http_l.m_is_started = true
  opened : httpd.m_http_l.m_server.m_socket.m_context.isSome = true

theorem HttpService.Up.listens {service : HttpService} (h : service.Up) : service.httpd.Listens := by
  constructor <;> rw [h.listener] <;> rfl

/-- Connections on which nothing is sent by reading. -/
structure Clients {σ : Type} (conn : Stream σ) (pending sent : σ → List UInt8 → Prop) : Prop where
  breaksOff : conn.BreaksOff fun state bytes => pending state bytes ∧ sent state []
  accepts : conn.Accepts sent
  returnsAtMost : conn.ReturnsAtMost

variable {σ : Type} {allocator : Allocator} {conn : Stream σ} {memcmp : Memcmp} {self : Httpd} {fuel : Nat}
  {pending sent : σ → List UInt8 → Prop}

/-- The test of the URL in `Httpd::run`. -/
theorem compare_raw_url (memcmp : Memcmp) {raw_url : List UInt8} (hlength : raw_url.length ≤ 1024) :
    ∃ order, (ConstStringRef.of_c_str raw_url).compare memcmp (.of_c_str (ascii "/")) = ok order ∧
      (order = 0 ↔ raw_url = ascii "/") := by
  let url : ShortString := ⟨_, raw_url, refers_of_c_str (by omega), by omega⟩
  let root : ShortString := ⟨_, ascii "/", refers_of_c_str (by decide), by decide⟩
  have horders := compare_orders memcmp
  obtain ⟨order, horder, -⟩ := horders url root
  refine ⟨order, horder, ?_⟩
  have hzero : url.str.compare memcmp root.str = ok 0 ↔ raw_url = ascii "/" :=
    horders.eq_zero_iff.trans shortlex_eq_iff
  have hsame : url.str.compare memcmp root.str = ok order := horder
  rwa [hsame, ok.injEq] at hzero

theorem raw_url_length_le {request_line : List UInt8} {headers : List (List UInt8)}
    (hlines : HeadLines request_line headers) : (before 32 (after 32 request_line)).length ≤ 1024 := by
  have hlength := hlines.length_le request_line (by simp)
  have hbefore := length_before_le 32 (after 32 request_line)
  have hafter := length_after_le 32 request_line
  omega

/-- A visit by a client that sends `bytes` and to which nothing was sent yet. -/
structure Brings (pending sent : σ → List UInt8 → Prop) (visit : Visit σ) (bytes : List UInt8) : Prop where
  accepted : visit.accepted.1 = ERR_OK
  pending : pending visit.accepted.2 bytes
  unsent : sent visit.accepted.2 []

section GetContext

variable {visit : Visit σ} {bytes : List UInt8} {heap : Heap}

/-- The client of a visit is accepted, and `get_context` reads its request from it. -/
theorem get_context_visit (conn : Stream σ) (hgrants : allocator.Grants) (hlistens : self.Listens)
    (hvisit : Brings pending sent visit bytes) (heap : Heap) :
    ∃ (ctx : HttpListenerContext σ) (line : text.StringBuffer), line.Holds 1024 [] ∧ ctx.m_response = {} ∧
      Unread (Socket.Open fun state bytes => pending state bytes ∧ sent state []) ctx.attached ctx.m_client.m_socket
        bytes ∧
      ∀ buf fuel, self.m_http_l.get_context allocator conn (.fresh visit.m_buffer) heap visit.accepted buf fuel =
        HttpListener.read_request allocator conn ctx heap.asked.asked line buf fuel := by
  obtain ⟨m_buffer, buf, ⟨err, state⟩, rtc⟩ := visit
  obtain ⟨rfl, hpending, hunsent⟩ := hvisit
  have hfresh : (HttpListenerContext.fresh m_buffer : HttpListenerContext σ).m_is_created = false := rfl
  obtain ⟨line, hline, hget⟩ := HttpListener.get_context_accepted conn hgrants hlistens.started
    hlistens.opened hfresh rfl heap state
  refine ⟨_, line, hline, rfl, ?_, hget⟩
  exact ⟨[], bytes, (HttpListenerContext.attached_unused rfl).toBuffers, ⟨state, rfl, hpending, hunsent⟩, rfl⟩

/-- A client whose request line has no space is refused. -/
theorem get_context_refused (hgrants : allocator.Grants) (hclients : Clients conn pending sent)
    (hlistens : self.Listens) {text rest : List UInt8} (htext : LineText text)
    (hlength : text.length ≤ 1024) (hspace : 32 ∉ text)
    (hvisit : Brings pending sent visit (text ++ 13 :: 10 :: rest)) (heap : Heap) (hfuel : 1027 ≤ fuel) :
    ∃ ctx nextHeap, self.m_http_l.get_context allocator conn (.fresh visit.m_buffer) heap visit.accepted visit.buf
        fuel = ok (kEFormat, ctx, nextHeap) ∧
      ctx.Owns heap nextHeap ∧ Socket.Open sent ctx.m_client.m_socket [] := by
  obtain ⟨ctx, line, hline, hresponse, hunread, hget⟩ := get_context_visit conn hgrants hlistens hvisit heap
  obtain ⟨bs, socket, hread, -, -, -, ⟨last, hlast, -, hunsent⟩, -⟩ := HttpListener.read_request_no_space
    hclients.breaksOff hline hunread htext hlength hspace visit.buf (by omega : text.length + 3 ≤ fuel)
  refine ⟨_, _, (hget visit.buf fuel).trans hread, HttpListenerContext.owns_of_vacant ?_ rfl, last, hlast, hunsent⟩
  simp only [HttpListenerContext.with_stream, hresponse]
  exact ⟨rfl, rfl⟩

/-- A client whose request is read has its response opened. -/
theorem get_context_opened (hgrants : allocator.Grants) (hclients : Clients conn pending sent)
    (hlistens : self.Listens) {request_line rest : List UInt8} {headers : List (List UInt8)}
    (hlines : HeadLines request_line headers)
    (hvisit : Brings pending sent visit (request_line ++ 13 :: 10 :: (header_bytes headers ++ rest))) (heap : Heap)
    (hfuel : headers.length + 1027 ≤ fuel) :
    ∃ ctx nextHeap, self.m_http_l.get_context allocator conn (.fresh visit.m_buffer) heap visit.accepted visit.buf
        fuel = ok (kOk, ctx, nextHeap) ∧
      ctx.m_request.m_uri.m_raw_url = before 32 (after 32 request_line) ∧ ctx.Opened sent heap nextHeap := by
  obtain ⟨m_buffer, buf, ⟨err, state⟩, rtc⟩ := visit
  obtain ⟨rfl, hpending, hunsent⟩ := hvisit
  have hunread : Unread (Socket.Open fun state bytes => pending state bytes ∧ sent state [])
      (HttpListenerContext.fresh m_buffer : HttpListenerContext σ).attached { m_context := some state }
      (request_line ++ 13 :: 10 :: (header_bytes headers ++ rest)) :=
    ⟨[], _, (HttpListenerContext.attached_unused rfl).toBuffers, ⟨state, rfl, hpending, hunsent⟩, rfl⟩
  obtain ⟨ctx, nextHeap, hget, -, hurl, -, -, hrest⟩ := HttpListener.get_context_head hgrants
    hclients.breaksOff.delivers hlistens.started hlistens.opened rfl rfl heap hlines hunread buf hfuel
  have hunused : steps (Session.call allocator conn fuel) { ctx := .fresh m_buffer, heap } [] =
      ok { ctx := .fresh m_buffer, heap } := rfl
  obtain ⟨hs, hopened, htype, full, left, hstored, hempty⟩ := HttpListenerContext.opened_of_calls hgrants
    (HttpListenerContext.givesWord_true allocator) hclients.returnsAtMost hunused hget
  obtain rfl : left = [] := hempty.mp (.inl rfl)
  obtain rfl := hstored.full_eq_nil (Nat.zero_le _)
  obtain ⟨-, -, -, ⟨last, hlast, -, hlastUnsent⟩, -⟩ := hrest
  exact ⟨ctx, nextHeap, hget, hurl, hs, hopened, htype, hstored,
    HttpListener.get_context_owns (.inl ⟨⟨rfl, rfl⟩, rfl⟩) hget, last, hlast, hlastUnsent⟩

end GetContext

/-- Bytes from which the service gets a request, or the error of a request line without a
space. -/
def Understood (bytes : List UInt8) : Prop := BeginsWithHead bytes ∨ BeginsWithoutSpace bytes

/-- A visit to which `answer` is to be sent. -/
def Expects (pending sent : σ → List UInt8 → Prop) (visit : Visit σ) (answer : List UInt8) : Prop :=
  ∃ bytes, Brings pending sent visit bytes ∧ Answers (DateTime.get_now visit.rtc) bytes answer

theorem Understood.answers {bytes : List UInt8} (h : Understood bytes) (now_time : DateTime) :
    ∃ answer, Answers now_time bytes answer := by
  rcases h with ⟨request_line, headers, rest, hlines, rfl⟩ | ⟨text, rest, htext, hlength, hspace, rfl⟩
  · by_cases hurl : before 32 (after 32 request_line) = ascii "/"
    · exact ⟨_, .page hlines hurl⟩
    · exact ⟨_, .not_found hlines hurl⟩
  · exact ⟨_, .refused htext hlength hspace⟩

theorem exists_answers {visits : List (Visit σ)} {requests : List (List UInt8)}
    (hvisits : List.Forall₂ (Brings pending sent) visits requests) (h : ∀ bytes ∈ requests, Understood bytes) :
    ∃ answers, List.Forall₂ (Expects pending sent) visits answers := by
  induction hvisits with
  | nil => exact ⟨[], .nil⟩
  | @cons visit bytes visits requests hvisit _ ih =>
    obtain ⟨answer, hanswer⟩ := (h bytes (by simp)).answers (DateTime.get_now visit.rtc)
    obtain ⟨answers, hanswers⟩ := ih fun other hother => h other (by simp [hother])
    exact ⟨answer :: answers, .cons ⟨bytes, hvisit, hanswer⟩ hanswers⟩

namespace HttpdRun

variable {run : HttpdRun σ} {ctx : HttpListenerContext σ} {heap : Heap} {bytes answer : List UInt8}

theorem end_pass_spec (howns : ctx.Owns run.heap heap) (hsocket : Socket.Open sent ctx.m_client.m_socket bytes)
    (hfuel : 2 ≤ fuel) :
    ∃ next state, run.end_pass ctx heap fuel = ok next ∧ next.heap.live = run.heap.live ∧
      next.closed = run.closed ++ [state] ∧ sent state bytes := by
  obtain ⟨state, hstate, hsent⟩ := hsocket
  obtain ⟨gone, nextHeap, hdestroy, hlive⟩ := howns.destroy hfuel
  refine ⟨{ run with heap := nextHeap, closed := run.closed ++ [state] }, state, ?_, hlive, rfl, hsent⟩
  simp [end_pass, hdestroy, Socket.closes, hstate]

/-- One client: it is sent its answer and closed, and the chunks are as before. -/
theorem pass_serves (hgrants : allocator.Grants) (hclients : Clients conn pending sent) (memcmp : Memcmp)
    (hlistens : self.Listens) {visit : Visit σ} (hvisit : Brings pending sent visit bytes)
    (hanswer : Answers (DateTime.get_now visit.rtc) bytes answer) :
    ∃ enough, ∀ fuel, enough ≤ fuel → ∀ run : HttpdRun σ, ∃ next state,
      run.pass allocator conn memcmp self fuel visit = ok next ∧ next.heap.live = run.heap.live ∧
      next.closed = run.closed ++ [state] ∧ sent state answer := by
  cases hanswer with
  | @page request_line rest headers hlines hurl =>
    refine ⟨headers.length + 1027, fun fuel hfuel run => ?_⟩
    obtain ⟨ctx, heap, hget, hraw, hopened⟩ :=
      get_context_opened hgrants hclients hlistens hlines hvisit run.heap hfuel
    obtain ⟨order, horder, hzero⟩ := compare_raw_url memcmp (raw_url_length_le hlines)
    obtain ⟨closed, closedHeap, hrespond, howns, hsent⟩ := hopened.respond hgrants hclients.accepts
      (by decide : 200 < 2 ^ 31) (DateTime.get_now visit.rtc).length_page_le (by omega : 1026 ≤ fuel)
    obtain ⟨⟨filled, filledHeap⟩, hbody, hclose⟩ := bind_eq_ok_iff.mp hrespond
    rw [← HttpListenerContext.put_time_eq] at hbody
    have hcounted : closed.Owns { run with counter := run.counter + 1 }.heap closedHeap := howns
    obtain ⟨next, state, hend, hnext⟩ := end_pass_spec hcounted hsent (by omega : 2 ≤ fuel)
    refine ⟨next, state, bind_eq_ok_iff.mpr ⟨_, hget, ?_⟩, hnext⟩
    simp only [is_failed_kOk, Bool.false_eq_true, if_false, hraw, horder, bind_ok, hzero.mpr hurl, if_true]
    exact bind_eq_ok_iff.mpr ⟨_, hbody, bind_eq_ok_iff.mpr ⟨_, hclose, hend⟩⟩
  | @not_found request_line rest headers hlines hurl =>
    have hnone : ([] : List (List UInt8)).flatten.length ≤ 512 := by simp
    refine ⟨headers.length + 1027, fun fuel hfuel run => ?_⟩
    obtain ⟨ctx, heap, hget, hraw, hopened⟩ :=
      get_context_opened hgrants hclients hlistens hlines hvisit run.heap hfuel
    obtain ⟨order, horder, hzero⟩ := compare_raw_url memcmp (raw_url_length_le hlines)
    obtain ⟨closed, closedHeap, hrespond, howns, hsent⟩ := hopened.respond hgrants hclients.accepts
      (by decide : 404 < 2 ^ 31) hnone (by omega : 1026 ≤ fuel)
    obtain ⟨next, state, hend, hnext⟩ := end_pass_spec howns hsent (by omega : 2 ≤ fuel)
    refine ⟨next, state, bind_eq_ok_iff.mpr ⟨_, hget, ?_⟩, hnext⟩
    simp only [is_failed_kOk, Bool.false_eq_true, if_false, hraw, horder, bind_ok, mt hzero.mp hurl]
    exact bind_eq_ok_iff.mpr ⟨_, hrespond, hend⟩
  | @refused text rest htext hlength hspace =>
    refine ⟨1027, fun fuel hfuel run => ?_⟩
    obtain ⟨ctx, heap, hget, howns, hsocket⟩ :=
      get_context_refused hgrants hclients hlistens htext hlength hspace hvisit run.heap hfuel
    obtain ⟨next, state, hend, hnext⟩ := end_pass_spec howns hsocket (by omega : 2 ≤ fuel)
    have hfailed : is_failed kEFormat = true := by decide
    exact ⟨next, state, by simp [pass, hget, hfailed, hend], hnext⟩

/-- Every client of a run, in order. The induction is on the visits. -/
theorem run_serves (hgrants : allocator.Grants) (hclients : Clients conn pending sent) (memcmp : Memcmp)
    (hlistens : self.Listens) {visits : List (Visit σ)} {answers : List (List UInt8)}
    (hvisits : List.Forall₂ (Expects pending sent) visits answers) :
    ∃ enough, ∀ fuel, enough ≤ fuel → ∀ run : HttpdRun σ, ∃ last clients,
      steps (pass allocator conn memcmp self fuel) run visits = ok last ∧ last.heap.live = run.heap.live ∧
      last.closed = run.closed ++ clients ∧ List.Forall₂ sent clients answers := by
  induction hvisits with
  | nil => exact ⟨0, fun fuel _ run => ⟨run, [], rfl, rfl, by simp, .nil⟩⟩
  | cons hvisit _ ih =>
    obtain ⟨bytes, hbrings, hanswer⟩ := hvisit
    obtain ⟨enough, hfirst⟩ := pass_serves hgrants hclients memcmp hlistens hbrings hanswer
    obtain ⟨more, hrest⟩ := ih
    refine ⟨max enough more, fun fuel hfuel run => ?_⟩
    obtain ⟨next, state, hpass, hlive, hclosed, hsent⟩ := hfirst fuel (by omega) run
    obtain ⟨last, clients, hsteps, hlastLive, hlastClosed, hclients⟩ := hrest fuel (by omega) next
    refine ⟨last, state :: clients, bind_eq_ok_iff.mpr ⟨next, hpass, hsteps⟩, hlastLive.trans hlive, ?_,
      .cons hsent hclients⟩
    rw [hlastClosed, hclosed, List.append_assoc, List.singleton_append]

/-- One client whose bytes are not understood: the service writes outside the buffer of the
line that it reads. -/
theorem pass_faults (hgrants : allocator.Grants) (hclients : Clients conn pending sent) (memcmp : Memcmp)
    (hlistens : self.Listens) {visit : Visit σ} (hvisit : Brings pending sent visit bytes)
    (hother : ¬ Understood bytes) (run : HttpdRun σ) (hfuel : bytes.length + 2054 ≤ fuel) :
    run.pass allocator conn memcmp self fuel visit = fail .invalid_access := by
  obtain ⟨ctx, line, hline, -, hunread, hread⟩ := get_context_visit conn hgrants hlistens hvisit run.heap
  rw [Understood, not_or] at hother
  simp [pass, hread, HttpListener.read_request_faults hgrants hclients.breaksOff run.heap.asked.asked hline hunread
    hother.1 hother.2 visit.buf hfuel]

/-- The clients before the first one that is not understood are served. -/
theorem run_faults (hgrants : allocator.Grants) (hclients : Clients conn pending sent) (memcmp : Memcmp)
    (hlistens : self.Listens) {visits : List (Visit σ)} {requests : List (List UInt8)}
    (hvisits : List.Forall₂ (Brings pending sent) visits requests) (hother : ¬ ∀ bytes ∈ requests, Understood bytes) :
    ∃ enough, ∀ fuel, enough ≤ fuel → ∀ run : HttpdRun σ,
      steps (pass allocator conn memcmp self fuel) run visits = fail .invalid_access := by
  induction hvisits with
  | nil => exact absurd (by simp) hother
  | @cons visit bytes visits requests hvisit _ ih =>
    by_cases hunderstood : Understood bytes
    · obtain ⟨answer, hanswer⟩ := hunderstood.answers (DateTime.get_now visit.rtc)
      obtain ⟨enough, hfirst⟩ := pass_serves hgrants hclients memcmp hlistens hvisit hanswer
      obtain ⟨more, hrest⟩ := ih fun hall => hother (List.forall_mem_cons.mpr ⟨hunderstood, hall⟩)
      refine ⟨max enough more, fun fuel hfuel run => ?_⟩
      obtain ⟨next, -, hpass, -⟩ := hfirst fuel (by omega) run
      rw [steps, hpass, bind_ok, hrest fuel (by omega) next]
    · refine ⟨bytes.length + 2054, fun fuel hfuel run => ?_⟩
      rw [steps, pass_faults hgrants hclients memcmp hlistens hvisit hunderstood run hfuel]
      rfl

section Service

variable {service : HttpService} {visits : List (Visit σ)}

/-- Once the service is up, every client whose bytes are understood is sent its own answer,
whatever the clients before it sent, and is closed then, once; the chunks in the heap are as
they were before. -/
theorem run_answers (hup : service.Up) (hgrants : allocator.Grants) (hclients : Clients conn pending sent)
    (memcmp : Memcmp) (heap : Heap) {answers : List (List UInt8)}
    (hvisits : List.Forall₂ (Expects pending sent) visits answers) :
    ∃ enough, ∀ fuel, enough ≤ fuel → ∃ last,
      steps (pass allocator conn memcmp service.httpd fuel) { heap } visits = ok last ∧
      last.heap.live = heap.live ∧ List.Forall₂ sent last.closed answers := by
  obtain ⟨enough, hserves⟩ := run_serves hgrants hclients memcmp hup.listens hvisits
  refine ⟨enough, fun fuel hfuel => ?_⟩
  obtain ⟨last, clients, hsteps, hlive, hclosed, hgot⟩ := hserves fuel hfuel { heap }
  exact ⟨last, hsteps, hlive, by rwa [hclosed]⟩

/-- The service gets to the end of a list of clients if it understands all of them. With one
that breaks off, or sends a line that is too long, it writes outside its buffer for lines. -/
theorem run_returns_or_faults (hup : service.Up) (hgrants : allocator.Grants) (hclients : Clients conn pending sent)
    (memcmp : Memcmp) (heap : Heap) {requests : List (List UInt8)}
    (hvisits : List.Forall₂ (Brings pending sent) visits requests) :
    ∃ enough, ∀ fuel, enough ≤ fuel →
      ((∀ bytes ∈ requests, Understood bytes) →
        ∃ last, steps (pass allocator conn memcmp service.httpd fuel) { heap } visits = ok last) ∧
      ((¬ ∀ bytes ∈ requests, Understood bytes) →
        steps (pass allocator conn memcmp service.httpd fuel) { heap } visits = fail .invalid_access) := by
  by_cases hunderstood : ∀ bytes ∈ requests, Understood bytes
  · obtain ⟨answers, hanswers⟩ := exists_answers hvisits hunderstood
    obtain ⟨enough, hserves⟩ := run_serves hgrants hclients memcmp hup.listens hanswers
    refine ⟨enough, fun fuel hfuel => ⟨fun _ => ?_, fun hother => absurd hunderstood hother⟩⟩
    obtain ⟨last, -, hsteps, -⟩ := hserves fuel hfuel { heap }
    exact ⟨last, hsteps⟩
  · obtain ⟨enough, hfaults⟩ := run_faults hgrants hclients memcmp hup.listens hvisits hunderstood
    exact ⟨enough, fun fuel hfuel => ⟨fun hall => absurd hall hunderstood, fun _ => hfaults fuel hfuel { heap }⟩⟩

end Service

/-- What a read keeps holds along with what is pending. -/
theorem breaksOff_and {kept : σ → Prop} (h : conn.BreaksOff pending)
    (hkept : ∀ {state size r data next}, conn.read state size = ok (r, data, next) → kept state → kept next) :
    conn.BreaksOff fun state bytes => pending state bytes ∧ kept state where
  delivers := by
    rintro state bytes size ⟨hpending, hstate⟩ hne hsize
    obtain ⟨data, rest, next, hread, hdata, hlength, hbytes, hnext⟩ := h.delivers state bytes size hpending hne hsize
    exact ⟨data, rest, next, hread, hdata, hlength, hbytes, hnext, hkept hread hstate⟩
  fails := by
    rintro state size ⟨hpending, hstate⟩ hsize
    obtain ⟨r, data, next, hread, hr, hlength, hnext⟩ := h.fails state size hpending hsize
    exact ⟨r, data, next, hread, hr, hlength, hnext, hkept hread hstate⟩

theorem sent_of_read {wire next : Wire} {size : UInt32} {r : RetVal UInt32} {data : List UInt8}
    (hread : Wire.stream.read wire size = ok (r, data, next)) : next.sent = wire.sent := by
  obtain ⟨segments, sent⟩ := wire
  cases segments with
  | nil =>
    cases hread
    rfl
  | cons segment segments =>
    simp only [Wire.stream] at hread
    split at hread <;> cases hread <;> rfl

/-- Wires are such connections. -/
theorem clients_wire : Clients Wire.stream Wire.Pending fun wire bytes => wire.sent = bytes where
  breaksOff := breaksOff_and Wire.stream_breaksOff fun hread hunsent => (sent_of_read hread).trans hunsent
  accepts := Wire.stream_accepts
  returnsAtMost := Wire.stream_returnsAtMost

/-- The `memcmp` that answers with -1, 0 and 1. -/
def signs : Memcmp where
  cmp left right :=
    match compare left right with
    | .lt => -1
    | .eq => 0
    | .gt => 1
  ordering_eq left right _ := by cases compare left right <;> decide

/-- A visit by a client that sends `bytes` at once, on the first of January of 1970. -/
def visit_of (bytes : List UInt8) : Visit Wire where
  m_buffer := Vector.replicate 256 0
  buf := 0
  accepted := (ERR_OK, .whole bytes)
  rtc := {}

theorem brings_whole (bytes : List UInt8) :
    Brings Wire.Pending (fun wire bytes => wire.sent = bytes) (visit_of bytes) bytes :=
  ⟨rfl, Wire.whole_pending bytes, rfl⟩

/-- A service that is up. -/
def service_up : HttpService := ⟨{ m_is_running := true, m_http_l := Httpd.opened true }, {}⟩

theorem headLines_of {request_line : List UInt8} (hspace : 32 ∈ request_line) (hcr : 13 ∉ request_line)
    (hlength : request_line.length ≤ 1024) : HeadLines request_line [] where
  space_mem := hspace
  header_ne_nil := by simp
  lineText := by simpa using lineText_of_notMem hcr
  length_le := by simpa using hlength

/-- A client that is sent the page, one that asks for something else and one that is refused. -/
theorem run_answers_three :
    ∃ enough, ∀ fuel, enough ≤ fuel → ∃ last,
      steps (pass (.bump id) Wire.stream signs service_up.httpd fuel) { heap := .empty }
        [visit_of (ascii "GET / HTTP/1.1\r\n\r\n"), visit_of (ascii "GET /a HTTP/1.1\r\n\r\n"),
          visit_of (ascii "A\r\n")] = ok last ∧
      last.heap.live = Heap.empty.live ∧
      List.Forall₂ (fun wire bytes => wire.sent = bytes) last.closed
        [response_bytes 200 14 (ascii "text/plain") (ascii "1970/1/1 0:0:0"),
          response_bytes 404 0 (ascii "text/plain") [], []] := by
  refine run_answers ⟨rfl, rfl⟩ (Allocator.bump_grants id) clients_wire signs .empty
    (.cons ⟨_, brings_whole _, ?_⟩ (.cons ⟨_, brings_whole _, ?_⟩ (.cons ⟨_, brings_whole _, ?_⟩ .nil)))
  · exact @Answers.page _ (ascii "GET / HTTP/1.1") [] [] (headLines_of (by decide) (by decide) (by decide)) (by decide)
  · exact @Answers.not_found _ (ascii "GET /a HTTP/1.1") [] [] (headLines_of (by decide) (by decide) (by decide))
      (by decide)
  · exact @Answers.refused _ (ascii "A") [] (lineText_of_notMem (by decide)) (by decide) (by decide)

theorem cr_mem_of_understood {bytes : List UInt8} (h : Understood bytes) : 13 ∈ bytes := by
  rcases h with ⟨request_line, headers, rest, -, rfl⟩ | ⟨text, rest, -, -, -, rfl⟩ <;> simp

/-- A client that is served, one that breaks off within its request line, and one after it. -/
theorem run_faults_at_broken :
    ∃ enough, ∀ fuel, enough ≤ fuel →
      steps (pass (.bump id) Wire.stream signs service_up.httpd fuel) { heap := .empty }
        [visit_of (ascii "GET / HTTP/1.1\r\n\r\n"), visit_of (ascii "GET /"),
          visit_of (ascii "GET / HTTP/1.1\r\n\r\n")] = fail .invalid_access := by
  have hup : service_up.Up := ⟨rfl, rfl⟩
  obtain ⟨enough, hrun⟩ := run_returns_or_faults hup (Allocator.bump_grants id) clients_wire signs .empty
    (.cons (brings_whole _) (.cons (brings_whole _) (.cons (brings_whole _) .nil)))
  refine ⟨enough, fun fuel hfuel => (hrun fuel hfuel).2 fun hunderstood => ?_⟩
  exact absurd (cr_mem_of_understood (hunderstood (ascii "GET /") (by simp))) (by decide)

end HttpdRun

end app

end kfw
