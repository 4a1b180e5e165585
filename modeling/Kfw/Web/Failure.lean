import Kfw.Net.Link
import Kfw.Web.ChunkBuffer.Chunks
import Kfw.Web.Framing

open exec Result kfw.io kfw.net

namespace kfw.web

/-- The error that a writer keeps: that of the last write that was refused. -/
def error_after (error : ret_t) : List (List UInt8 × Int) → ret_t
  | [] => error
  | (_, err) :: log => error_after (if err = ERR_OK then error else lwip_err_to_ret err) log

theorem error_after_append (error : ret_t) (log more : List (List UInt8 × Int)) :
    error_after error (log ++ more) = error_after (error_after error log) more := by
  induction log generalizing error with
  | nil => rfl
  | cons entry log ih => exact ih _

theorem error_after_eq_kOk {log : List (List UInt8 × Int)} (h : Taken log) : error_after kOk log = kOk := by
  induction log with
  | nil => rfl
  | cons entry log ih =>
    rw [error_after, if_pos (h entry (by simp))]
    exact ih fun other hother => h other (by simp [hother])

theorem error_after_failed {error : ret_t} (herror : is_failed error = true)
    (log : List (List UInt8 × Int)) : is_failed (error_after error log) = true := by
  induction log generalizing error with
  | nil => exact herror
  | cons entry log ih =>
    rw [error_after]
    split
    · exact ih herror
    · exact ih (is_failed_lwip_err_to_ret ‹_›)

/-- The writer has an error exactly when a write was refused. -/
theorem is_failed_error_after (log : List (List UInt8 × Int)) :
    is_failed (error_after kOk log) = true ↔ ¬ Taken log := by
  constructor
  · intro hfailed htaken
    rw [error_after_eq_kOk htaken] at hfailed
    exact absurd hfailed (by simp)
  · induction log with
    | nil => exact fun h => absurd (fun entry hentry => absurd hentry (by simp)) h
    | cons entry log ih =>
      intro hrefused
      rw [error_after]
      by_cases herr : entry.2 = ERR_OK
      · rw [if_pos herr]
        refine ih fun htaken => hrefused fun other hother => ?_
        rcases List.mem_cons.mp hother with rfl | hother
        · exact herr
        · exact htaken other hother
      · rw [if_neg herr]
        exact error_after_failed (is_failed_lwip_err_to_ret herr) log

/-- A writer over `s` that was given `parts` to write, over a link. -/
def Tried (s : BufferedStream) (link : Link) (parts : List (List UInt8)) (writer : StreamWriter (Socket Link)) :
    Prop :=
  writer = {
    m_s := s
    base_state := { m_context := some (link.attempted parts) }
    m_error := error_after kOk (attempts link.answers parts) }

variable {s : BufferedStream} {link : Link} {parts : List (List UInt8)} {writer : StreamWriter (Socket Link)}

/-- A write over an open socket. -/
theorem write_link (hs : s.Unbuffered) (link : Link) (data : List UInt8) :
    ∃ r, s.write (SocketStream Link.stream) { m_context := some link } data =
        ok (r, s, { m_context := some (link.attempted [data]) }) ∧
      (is_failed r.ret = true ↔ ¬ Taken (attempts link.answers [data])) ∧
      ∀ error, (if is_failed r.ret then r.ret else error) = error_after error (attempts link.answers [data]) := by
  rw [hs.write_eq]
  by_cases hdata : data = []
  · refine ⟨⟨kOk, 0⟩, ?_, ?_, ?_⟩
    · simp [hdata, Link.attempted, attempts]
    · simp [hdata, attempts, Taken]
    · simp [hdata, attempts, error_after]
  · have hnext : link.wrote data = link.attempted [data] := by
      simp [Link.wrote, Link.attempted, attempts, hdata]
    by_cases herr : link.answers 0 = ERR_OK
    · refine ⟨⟨kOk, data.length.toUInt32⟩, ?_, ?_, ?_⟩
      · simp [hdata, SocketStream, Link.stream, herr, hnext]
      · simp [hdata, attempts, Taken, herr]
      · simp [hdata, attempts, error_after, herr]
    · have hfailed := is_failed_lwip_err_to_ret herr
      refine ⟨⟨lwip_err_to_ret (link.answers 0), 0⟩, ?_, ?_, ?_⟩
      · simp [hdata, SocketStream, Link.stream, herr, hnext]
      · simp [hdata, attempts, Taken, herr, hfailed]
      · simp [hdata, attempts, error_after, herr, hfailed]

theorem Tried.put (h : Tried s link parts writer) (hs : s.Unbuffered) (value : List UInt8) :
    ∃ next, writer.put (SocketStream Link.stream) value = ok next ∧ Tried s link (parts ++ [value]) next := by
  obtain rfl := h
  obtain ⟨r, hwrite, _, herror⟩ := write_link hs (link.attempted parts) value
  refine ⟨_, ?_, rfl⟩
  simp only [StreamWriter.put, hwrite, bind_ok, herror, attempted_append, attempts_append, error_after_append]
  rfl

theorem Tried.put_int32 (h : Tried s link parts writer) (hs : s.Unbuffered) (value : Int32) :
    ∃ next, writer.put_int32 (SocketStream Link.stream) value = ok next ∧
      Tried s link (parts ++ [Int32.text value]) next := by
  obtain ⟨next, hput, hnext⟩ := h.put hs (Int32.text value)
  refine ⟨next, ?_, hnext⟩
  simp [StreamWriter.put_int32, Int32.to_string_eq, StreamWriter.put_formatted, hput]

theorem Tried.put_uint32 (h : Tried s link parts writer) (hs : s.Unbuffered) (value : UInt32) :
    ∃ next, writer.put_uint32 (SocketStream Link.stream) value = ok next ∧
      Tried s link (parts ++ [decimal value.toNat]) next := by
  obtain ⟨next, hput, hnext⟩ := h.put hs (decimal value.toNat)
  refine ⟨next, ?_, hnext⟩
  simp [StreamWriter.put_uint32, UInt32.to_string_spec, StreamWriter.put_formatted, hput]

theorem Tried.flush (h : Tried s link parts writer) (hs : s.Unbuffered) :
    writer.flush (SocketStream Link.stream) = ok writer := by
  obtain rfl := h
  simp [StreamWriter.flush, hs.flush_eq, SocketStream]

/-- What is put for the status line. -/
def status_line_parts (status_code : Int32) : List (List UInt8) :=
  [ascii "HTTP/1.1 ", Int32.text status_code, ascii " ", HttpUtil.get_status_code_text status_code, kCrLf]

/-- What is put for the headers. -/
def header_parts (total_size : UInt32) (content_type : List UInt8) : List (List UInt8) :=
  [ascii "Content-Length: ", decimal total_size.toNat, kCrLf, ascii "Content-Type: ", content_type, kCrLf,
    ascii "Connection: close", kCrLf, kCrLf]

theorem Tried.write_status_line (h : Tried s link parts writer) (hs : s.Unbuffered) (status_code : Int32) :
    ∃ next, write_status_line (SocketStream Link.stream) writer status_code = ok next ∧
      Tried s link (parts ++ status_line_parts status_code) next := by
  obtain ⟨w1, h1, hw1⟩ := h.put hs (ascii "HTTP/1.1 ")
  obtain ⟨w2, h2, hw2⟩ := hw1.put_int32 hs status_code
  obtain ⟨w3, h3, hw3⟩ := hw2.put hs (ascii " ")
  obtain ⟨w4, h4, hw4⟩ := hw3.put hs (HttpUtil.get_status_code_text status_code)
  obtain ⟨w5, h5, hw5⟩ := hw4.put hs kCrLf
  refine ⟨w5, by simp [kfw.web.write_status_line, h1, h2, h3, h4, h5], ?_⟩
  simpa only [status_line_parts, List.append_assoc, List.cons_append, List.nil_append] using hw5

theorem Tried.write_headers (h : Tried s link parts writer) (hs : s.Unbuffered) (total_size : UInt32)
    (content_type : List UInt8) :
    ∃ next, write_headers (SocketStream Link.stream) writer total_size content_type = ok next ∧
      Tried s link (parts ++ header_parts total_size content_type) next := by
  obtain ⟨w1, h1, hw1⟩ := h.put hs (ascii "Content-Length: ")
  obtain ⟨w2, h2, hw2⟩ := hw1.put_uint32 hs total_size
  obtain ⟨w3, h3, hw3⟩ := hw2.put hs kCrLf
  obtain ⟨w4, h4, hw4⟩ := hw3.put hs (ascii "Content-Type: ")
  obtain ⟨w5, h5, hw5⟩ := hw4.put hs content_type
  obtain ⟨w6, h6, hw6⟩ := hw5.put hs kCrLf
  obtain ⟨w7, h7, hw7⟩ := hw6.put hs (ascii "Connection: close")
  obtain ⟨w8, h8, hw8⟩ := hw7.put hs kCrLf
  obtain ⟨w9, h9, hw9⟩ := hw8.put hs kCrLf
  refine ⟨w9, by simp [kfw.web.write_headers, h1, h2, h3, h4, h5, h6, h7, h8, h9], ?_⟩
  simpa only [header_parts, List.append_assoc, List.cons_append, List.nil_append] using hw9

/-- The chunks are sent up to the first that is refused. -/
theorem send_chunks_link (hs : s.Unbuffered) (link : Link) (pieces : List (List UInt8)) :
    ∃ sent_all next log, visit_all (send_chunk (SocketStream Link.stream)) (fun _ state => ok (true, state))
        pieces.length (s, { m_context := some link }) pieces = ok (sent_all, s, { m_context := some next }) ∧
      next.log = link.log ++ log ∧
      (sent_all = true ∧ log = attempts link.answers pieces ∧ Taken log ∨
        sent_all = false ∧ ¬ Taken log ∧ ¬ Taken (attempts link.answers pieces)) := by
  induction pieces generalizing link with
  | nil => exact ⟨true, link, [], rfl, by simp, .inl ⟨rfl, rfl, by simp [Taken]⟩⟩
  | cons piece pieces ih =>
    obtain ⟨r, hwrite, hfailed, _⟩ := write_link hs link piece
    have hattempts := attempts_append link.answers [piece] pieces
    rw [List.singleton_append] at hattempts
    rw [List.length_cons, hattempts, taken_append]
    by_cases htaken : Taken (attempts link.answers [piece])
    · obtain ⟨sent_all, next, log, hrest, hlog, hend⟩ := ih (link.attempted [piece])
      refine ⟨sent_all, next, attempts link.answers [piece] ++ log, ?_, ?_, ?_⟩
      · have hok : is_failed r.ret = false := by
          rw [← Bool.not_eq_true, hfailed]
          exact not_not.mpr htaken
        simp [visit_all, send_chunk, hwrite, hok, hrest]
      · rw [hlog, Link.attempted, List.append_assoc]
      · rcases hend with ⟨hsent, hall, hlogTaken⟩ | ⟨hsent, hrefused, hnot⟩
        · refine .inl ⟨hsent, ?_, taken_append.mpr ⟨htaken, hlogTaken⟩⟩
          rw [hall]
          rfl
        · exact .inr ⟨hsent, fun h => hrefused (taken_append.mp h).2, fun h => hnot h.2⟩
    · refine ⟨false, link.attempted [piece], attempts link.answers [piece], ?_, rfl,
        .inr ⟨rfl, htaken, fun h => htaken h.1⟩⟩
      simp [visit_all, send_chunk, hwrite, hfailed.mpr htaken, Result.proceed]

/-- The end of a response as it should be: what the connection took is the
beginning of the response, and the answer is `kOk` exactly if every write was
taken. -/
def EndsClean (response : List UInt8) (r : ret_t) (log : List (List UInt8 × Int)) : Prop :=
  accepted log <+: response ∧ (r = kOk ↔ Taken log)

/-- The patterns of answers that a response withstands. The first write that is
refused is not one of the body; and after it nothing is taken of the status line,
or of the headers, but what comes next. -/
def Withstands (answers : Nat → Int) (status_line headers body : List (List UInt8)) : Prop :=
  if ¬ Taken (attempts answers status_line) then Gapless (attempts answers status_line)
  else if ¬ Taken (attempts answers (status_line ++ headers)) then
    Gapless (attempts answers (status_line ++ headers))
  else Taken (attempts answers (status_line ++ headers ++ body))

instance (answers : Nat → Int) (status_line headers body : List (List UInt8)) :
    Decidable (Withstands answers status_line headers body) :=
  inferInstanceAs (Decidable (if ¬ Taken (attempts answers status_line) then Gapless _
    else if ¬ Taken (attempts answers (status_line ++ headers)) then Gapless _ else Taken _))

/-- A response that ends with an error after `parts` were tried. -/
theorem endsClean_of_failed {parts rest : List (List UInt8)}
    (hrefused : ¬ Taken (attempts link.answers parts)) :
    EndsClean (parts ++ rest).flatten (error_after kOk (attempts link.answers parts))
      (attempts link.answers parts) ↔ Gapless (attempts link.answers parts) := by
  have hfailed := (is_failed_error_after _).mpr hrefused
  have hanswer : error_after kOk (attempts link.answers parts) = kOk ↔ Taken (attempts link.answers parts) := by
    refine iff_of_false (fun hok => ?_) hrefused
    rw [hok] at hfailed
    exact absurd hfailed (by simp)
  unfold EndsClean
  rw [and_iff_left hanswer, List.flatten_append, ← flatten_attempts link.answers parts, accepted_prefix_iff]

namespace HttpListenerContext

/-- What `write_response` sends when nothing is refused. -/
def complete_response (response : HttpListenerResponse) (body : List (List UInt8)) : List (List UInt8) :=
  status_line_parts response.m_status_code ++
    header_parts response.m_stream.m_chunk_buffer.get_total_size response.m_content_type ++ body

/-- What `write_response` sends and answers. If something of the status line or
of the headers is refused it stops after them with the writer's error; otherwise
it sends the chunks up to the first that is refused, and answers `kOk`. -/
theorem write_response_link {ctx : HttpListenerContext Link} (hs : ctx.m_stream.Unbuffered)
    (hsocket : ctx.m_client.m_socket.m_context = some link) {heap : Heap} {fuel : Nat}
    {body line headers : List (List UInt8)}
    (hbody : ctx.m_response.m_stream.m_chunk_buffer.chunks heap fuel = ok body)
    (hline : line = status_line_parts ctx.m_response.m_status_code)
    (hheaders : headers = header_parts ctx.m_response.m_stream.m_chunk_buffer.get_total_size
      ctx.m_response.m_content_type) :
    ∃ r next nextHeap last log, ctx.write_response Link.stream heap fuel = ok (r, next, nextHeap) ∧
      next.m_client.m_socket.m_context = some last ∧ last.log = link.log ++ log ∧
      (¬ Taken (attempts link.answers line) ∧
          log = attempts link.answers line ∧ r = error_after kOk log ∨
        Taken (attempts link.answers line) ∧ ¬ Taken (attempts link.answers (line ++ headers)) ∧
          log = attempts link.answers (line ++ headers) ∧ r = error_after kOk log ∨
        Taken (attempts link.answers line) ∧ Taken (attempts link.answers (line ++ headers)) ∧ r = kOk ∧
          (Taken log ∧ log = attempts link.answers (line ++ headers ++ body) ∨
            ¬ Taken log ∧ ¬ Taken (attempts link.answers (line ++ headers ++ body)))) := by
  have hstart : Tried ctx.m_stream link [] { m_s := ctx.m_stream, base_state := ctx.m_client.m_socket } := by
    have hopen : ctx.m_client.m_socket = { m_context := some link } := by rw [← hsocket]
    simp [Tried, hopen, attempts, error_after, Link.attempted]
  obtain ⟨w1, hw1, htried1⟩ := hstart.write_status_line hs ctx.m_response.m_status_code
  rw [List.nil_append, ← hline] at htried1
  have herror1 : w1.m_error = error_after kOk (attempts link.answers line) := by rw [htried1]
  by_cases htaken1 : Taken (attempts link.answers line)
  · have hok1 : is_failed w1.m_error = false := by
      rw [herror1, error_after_eq_kOk htaken1]
      rfl
    obtain ⟨w2, hw2, htried2⟩ := htried1.write_headers hs
      ctx.m_response.m_stream.m_chunk_buffer.get_total_size ctx.m_response.m_content_type
    rw [← hheaders] at htried2
    have herror2 : w2.m_error = error_after kOk (attempts link.answers (line ++ headers)) := by rw [htried2]
    have hflush1 := htried1.flush hs
    have hflush2 := htried2.flush hs
    by_cases htaken2 : Taken (attempts link.answers (line ++ headers))
    · have hok2 : w2.m_error = kOk := by rw [herror2, error_after_eq_kOk htaken2]
      obtain ⟨sent_all, last, log, hsend, hlog, hend⟩ :=
        send_chunks_link hs (link.attempted (line ++ headers)) body
      have hwalk : ChunkBufferEnumerator.walk heap (send_chunk (SocketStream Link.stream))
          (fun state => (true, state)) fuel (.mk_of ctx.m_response.m_stream.m_chunk_buffer)
          (w2.m_s, w2.base_state) = ok (sent_all, ctx.m_stream, { m_context := some last }) := by
        rw [(ChunkBuffer.walked_of_chunks hbody).walk_eq, htried2]
        exact hsend
      have hlast : last.log = link.log ++ (attempts link.answers (line ++ headers) ++ log) := by
        rw [hlog, Link.attempted, List.append_assoc]
      rw [attempts_append link.answers (line ++ headers) body]
      rcases hend with ⟨rfl, hall, htaken⟩ | ⟨rfl, hrefused, hbodyRefused⟩
      · obtain ⟨cb, nextHeap, hdispose⟩ := ChunkBuffer.dispose_of_chunks hbody
        refine ⟨kOk, { ctx.with_stream ctx.m_stream { m_context := some last } with
          m_response.m_stream.m_chunk_buffer := cb }, nextHeap, last, _, ?_, rfl, hlast,
          .inr (.inr ⟨htaken1, htaken2, rfl, .inl ⟨taken_append.mpr ⟨htaken2, htaken⟩, by rw [hall]; rfl⟩⟩)⟩
        have hflush : ctx.m_stream.flush (SocketStream Link.stream) { m_context := some last } =
            ok (ctx.m_stream, { m_context := some last }) := by
          rw [hs.flush_eq]
          rfl
        simp [write_response, hw1, hok1, hflush1, hw2, hok2, hflush2, hwalk, hflush, hdispose, with_stream]
      · -- the error of the writer is returned for a chunk that was refused
        refine ⟨kOk, ctx.with_stream ctx.m_stream { m_context := some last }, heap, last, _, ?_, rfl, hlast,
          .inr (.inr ⟨htaken1, htaken2, rfl, .inr ⟨fun h => hrefused (taken_append.mp h).2,
            fun h => hbodyRefused (taken_append.mp h).2⟩⟩)⟩
        simp [write_response, hw1, hok1, hflush1, hw2, hok2, hflush2, hwalk]
    · have hfailed : is_failed w2.m_error = true := by
        rw [herror2]
        exact (is_failed_error_after _).mpr htaken2
      refine ⟨w2.m_error, ctx.with_stream w2.m_s w2.base_state, heap, link.attempted (line ++ headers), _,
        ?_, ?_, rfl, .inr (.inl ⟨htaken1, htaken2, rfl, herror2⟩)⟩
      · simp [write_response, hw1, hok1, hflush1, hw2, hfailed]
      · rw [htried2]
        rfl
  · have hfailed : is_failed w1.m_error = true := by
      rw [herror1]
      exact (is_failed_error_after _).mpr htaken1
    refine ⟨w1.m_error, ctx.with_stream w1.m_s w1.base_state, heap, link.attempted line, _, ?_, ?_, rfl,
      .inl ⟨htaken1, rfl, herror1⟩⟩
    · simp [write_response, hw1, hfailed]
    · rw [htried1]
      rfl

/-- Failure behaviour of any response, whatever its chunks are, and for every
pattern of refused writes. -/
theorem write_response_endsClean_iff {ctx : HttpListenerContext Link} (hs : ctx.m_stream.Unbuffered)
    (hsocket : ctx.m_client.m_socket.m_context = some link) {heap : Heap} {fuel : Nat}
    {body : List (List UInt8)}
    (hbody : ctx.m_response.m_stream.m_chunk_buffer.chunks heap fuel = ok body) :
    ∃ r next nextHeap last log, ctx.write_response Link.stream heap fuel = ok (r, next, nextHeap) ∧
      next.m_client.m_socket.m_context = some last ∧ last.log = link.log ++ log ∧
      (EndsClean (complete_response ctx.m_response body).flatten r log ↔
        Withstands link.answers (status_line_parts ctx.m_response.m_status_code)
          (header_parts ctx.m_response.m_stream.m_chunk_buffer.get_total_size ctx.m_response.m_content_type)
          body) := by
  obtain ⟨r, next, nextHeap, last, log, hwrite, hlast, hlog, hend⟩ := write_response_link hs hsocket hbody rfl rfl
  refine ⟨r, next, nextHeap, last, log, hwrite, hlast, hlog, ?_⟩
  rw [complete_response, Withstands]
  rcases hend with ⟨hrefused, rfl, rfl⟩ | ⟨hline, hrefused, rfl, rfl⟩ | ⟨hline, hheaders, rfl, hend⟩
  · rw [if_pos hrefused, List.append_assoc]
    exact endsClean_of_failed hrefused
  · rw [if_neg (not_not.mpr hline), if_pos hrefused]
    exact endsClean_of_failed hrefused
  · rw [if_neg (not_not.mpr hline), if_neg (not_not.mpr hheaders)]
    rcases hend with ⟨htaken, rfl⟩ | ⟨hrefused, hnot⟩
    · refine iff_of_true ⟨?_, iff_of_true rfl htaken⟩ htaken
      rw [htaken.accepted_eq, flatten_attempts]
    · exact iff_of_false (fun hclean => hrefused (hclean.2.mp rfl)) hnot

/-- A context with an open connection that takes two writes and refuses the
others. -/
def refused : HttpListenerContext Link where
  m_buffer := Vector.replicate 256 0
  m_stream := attached (.fresh (Vector.replicate 256 0) : HttpListenerContext Link)
  m_client.m_socket.m_context :=
    some { wire := { segments := [] }, answers := fun k => if k < 2 then ERR_OK else -1 }

theorem write_response_endsClean_refused :
    ∃ r next nextHeap last log, refused.write_response Link.stream .empty 1 = ok (r, next, nextHeap) ∧
      next.m_client.m_socket.m_context = some last ∧ last.log = [] ++ log ∧
      EndsClean (complete_response refused.m_response []).flatten r log := by
  have hs : refused.m_stream.Unbuffered := (attached_unused rfl).unbuffered
  have hbody : refused.m_response.m_stream.m_chunk_buffer.chunks .empty 1 = ok [] := rfl
  obtain ⟨r, next, nextHeap, last, log, hwrite, hlast, hlog, hclean⟩ :=
    write_response_endsClean_iff hs rfl hbody
  exact ⟨r, next, nextHeap, last, log, hwrite, hlast, hlog, hclean.mpr (by decide +kernel)⟩

/-- The response that is open after a request was read from a connection with
given answers, and `data` was written to it. -/
def served (answers : Nat → Int) (data : List UInt8) : Exec (HttpListenerContext Link × Heap) := do
  let (_, ctx, heap) ← HttpListener.serving.get_context (.bump fun _ => nullptr) Link.stream
    (.fresh (Vector.replicate 256 0)) .empty
    (ERR_OK, { wire := { segments := [ascii "B \r\n\r\n"] }, answers }) 0 12
  write_body (.bump fun _ => nullptr) 12 ctx heap [data]

/-- When the first write is refused and no other, the rest of the status line is
sent without it; and when only the write of the body is refused, the answer is
`kOk`. -/
theorem write_response_hides_refusal :
    (∃ ctx heap r closed closedHeap log, served (fun k => if k = 0 then -1 else ERR_OK) [] = ok (ctx, heap) ∧
      ctx.m_response.m_stream.m_chunk_buffer.chunks heap 12 = ok [[]] ∧
      ctx.write_response Link.stream heap 12 = ok (r, closed, closedHeap) ∧
      closed.m_client.m_socket.m_context.map Link.log = some log ∧
      accepted log = ascii "200 OK\r\n" ∧ ¬ EndsClean (complete_response ctx.m_response [[]]).flatten r log) ∧
    ∃ ctx heap r closed closedHeap log,
      served (fun k => if k = 14 then -1 else ERR_OK) (ascii "X") = ok (ctx, heap) ∧
      ctx.m_response.m_stream.m_chunk_buffer.chunks heap 12 = ok [ascii "X"] ∧
      ctx.write_response Link.stream heap 12 = ok (r, closed, closedHeap) ∧
      closed.m_client.m_socket.m_context.map Link.log = some log ∧
      r = kOk ∧ ¬ EndsClean (complete_response ctx.m_response [ascii "X"]).flatten r log := by
  constructor
  · have hrun : (served (fun k => if k = 0 then -1 else ERR_OK) [] >>= fun (ctx, heap) =>
        ctx.write_response Link.stream heap 12 >>= fun (_, closed, _) =>
        ok (ctx.m_response.m_stream.m_chunk_buffer.chunks heap 12,
          (closed.m_client.m_socket.m_context.map Link.log).map fun log =>
            (accepted log, decide (accepted log <+: (complete_response ctx.m_response [[]]).flatten)))) =
        (ok (ok [[]], some (ascii "200 OK\r\n", false)) : Exec _) := by decide +kernel
    obtain ⟨⟨ctx, heap⟩, hserved, hrest⟩ := bind_eq_ok_iff.mp hrun
    obtain ⟨⟨r, closed, closedHeap⟩, hwrite, hresult⟩ := bind_eq_ok_iff.mp hrest
    obtain ⟨hchunks, hlog⟩ := Prod.mk.inj (ok.inj hresult)
    obtain ⟨log, hlast, hlog⟩ := Option.map_eq_some_iff.mp hlog
    obtain ⟨haccepted, hnot⟩ := Prod.mk.inj hlog
    exact ⟨ctx, heap, r, closed, closedHeap, log, hserved, hchunks, hwrite, hlast, haccepted,
      fun hclean => absurd hclean.1 (of_decide_eq_false hnot)⟩
  · have hrun : (served (fun k => if k = 14 then -1 else ERR_OK) (ascii "X") >>= fun (ctx, heap) =>
        ctx.write_response Link.stream heap 12 >>= fun (r, closed, _) =>
        ok (ctx.m_response.m_stream.m_chunk_buffer.chunks heap 12, r,
          (closed.m_client.m_socket.m_context.map Link.log).map fun log => decide (Taken log))) =
        (ok (ok [ascii "X"], kOk, some false) : Exec _) := by decide +kernel
    obtain ⟨⟨ctx, heap⟩, hserved, hrest⟩ := bind_eq_ok_iff.mp hrun
    obtain ⟨⟨r, closed, closedHeap⟩, hwrite, hresult⟩ := bind_eq_ok_iff.mp hrest
    simp only [ok.injEq, Prod.mk.injEq] at hresult
    obtain ⟨hchunks, hr, hlog⟩ := hresult
    obtain ⟨log, hlast, hnot⟩ := Option.map_eq_some_iff.mp hlog
    exact ⟨ctx, heap, r, closed, closedHeap, log, hserved, hchunks, hwrite, hlast, hr,
      fun hclean => absurd (hclean.2.mp hr) (of_decide_eq_false hnot)⟩

end HttpListenerContext

end kfw.web
