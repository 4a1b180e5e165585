import Kfw.Io.BufferedStream.Alike
import Kfw.Web.Listener

open exec Result kfw.io kfw.net kfw.text

namespace kfw.web

variable {σ : Type} {base : Stream σ} {capacity : Nat}

/-- Two line buffers of one capacity with the same text in them. -/
def LineAlike (capacity : Nat) (left right : StringBuffer) : Prop :=
  ∃ text, left.Holds capacity text ∧ right.Holds capacity text

theorem LineAlike.clear {left right : StringBuffer} (h : LineAlike capacity left right) :
    LineAlike capacity left.clear right.clear := by
  obtain ⟨text, hleft, hright⟩ := h
  exact ⟨[], hleft.clear, hright.clear⟩

theorem LineAlike.append {left right : StringBuffer} (h : LineAlike capacity left right) (ch : UInt8) :
    (left.append ch).Rel (fun x y => x.1 = y.1 ∧ LineAlike capacity x.2 y.2) (right.append ch) := by
  obtain ⟨text, hleft, hright⟩ := h
  rcases Nat.lt_or_eq_of_le hleft.length_le_capacity with hroom | hfull
  · obtain ⟨nextLeft, happendLeft, hnextLeft⟩ := hleft.append hroom ch
    obtain ⟨nextRight, happendRight, hnextRight⟩ := hright.append hroom ch
    rw [happendLeft, happendRight]
    exact .ok ⟨rfl, _, hnextLeft, hnextRight⟩
  · rw [hleft.append_past hfull ch, hright.append_past hfull ch]
    exact .fail _

/-- Answers of `read_line` that differ only in what a reader does not see. -/
def LineRead (capacity : Nat) (left right : ret_t × BufferedStream × σ × StringBuffer) : Prop :=
  left.1 = right.1 ∧ left.2.1.Alike 256 right.2.1 ∧ left.2.2.1 = right.2.2.1 ∧
    LineAlike capacity left.2.2.2 right.2.2.2

def LineReadingAlike (capacity : Nat) (left right : LineReading σ) : Prop :=
  left.s.Alike 256 right.s ∧ left.base_state = right.base_state ∧ LineAlike capacity left.line right.line ∧
    left.buf = right.buf

theorem read_line_pass_rel (hbase : base.ReturnsAtMost) (fuel : Nat) {left right : LineReading σ}
    (h : LineReadingAlike capacity left right) :
    (read_line_pass base fuel left).Rel (Flow.Rel (LineReadingAlike capacity) (LineRead capacity))
      (read_line_pass base fuel right) := by
  obtain ⟨hs, hstate, hline, hbuf⟩ := h
  unfold read_line_pass
  rw [hstate, hbuf]
  apply (hs.read hbase right.base_state 1 fuel).bind
  rintro ⟨_, data, s, base_state⟩ ⟨_, _, s', _⟩ ⟨_, rfl, hs, rfl⟩
  simp only at hs ⊢
  split
  · apply (hs.read hbase base_state 1 fuel).bind
    rintro ⟨_, data2, s, base_state⟩ ⟨_, _, s', _⟩ ⟨_, rfl, hs, rfl⟩
    simp only at hs ⊢
    split
    · exact .ok (.done ⟨rfl, hs, rfl, hline⟩)
    · apply (hline.append _).bind
      rintro ⟨r, line⟩ ⟨_, line'⟩ ⟨rfl, hline⟩
      simp only at hline ⊢
      split
      · exact .ok (.done ⟨rfl, hs, rfl, hline⟩)
      · apply (hline.append _).bind
        rintro ⟨r, line⟩ ⟨_, line'⟩ ⟨rfl, hline⟩
        simp only at hline ⊢
        split
        · exact .ok (.done ⟨rfl, hs, rfl, hline⟩)
        · exact .ok (.cont ⟨hs, rfl, hline, rfl⟩)
  · apply (hline.append _).bind
    rintro ⟨r, line⟩ ⟨_, line'⟩ ⟨rfl, hline⟩
    simp only at hline ⊢
    split
    · exact .ok (.done ⟨rfl, hs, rfl, hline⟩)
    · exact .ok (.cont ⟨hs, rfl, hline, rfl⟩)

theorem read_line_rel (hbase : base.ReturnsAtMost) {s s' : BufferedStream} (hs : s.Alike 256 s')
    (base_state : σ) {line line' : StringBuffer} (hline : LineAlike capacity line line') (buf : UInt8)
    (fuel : Nat) :
    (read_line base s base_state line buf fuel).Rel (LineRead capacity)
      (read_line base s' base_state line' buf fuel) := by
  have hstart : LineReadingAlike capacity { s, base_state, line := line.clear, buf }
      { s := s', base_state, line := line'.clear, buf } := ⟨hs, rfl, hline.clear, rfl⟩
  exact loop_rel (fun _ _ => read_line_pass_rel hbase fuel) hstart fuel

/-- Two runs of the loop over the headers at the same place. -/
def HeadersAlike (capacity : Nat) (left right : HeaderReading σ) : Prop :=
  left.s.Alike 256 right.s ∧ left.base_state = right.base_state ∧ LineAlike capacity left.line right.line ∧
    left.content_length = right.content_length

theorem read_header_pass_rel (hbase : base.ReturnsAtMost) (buf : UInt8) (fuel : Nat)
    {left right : HeaderReading σ} (h : HeadersAlike capacity left right) :
    (read_header_pass base buf fuel left).Rel
      (Flow.Rel (HeadersAlike capacity) fun x y => x.1 = y.1 ∧ HeadersAlike capacity x.2 y.2)
      (read_header_pass base buf fuel right) := by
  obtain ⟨hs, hstate, hline, hlength⟩ := h
  have hread := read_line_rel hbase hs right.base_state hline buf fuel
  rw [← hstate] at hread
  generalize hleft : read_line base left.s left.base_state left.line buf fuel = x at hread
  generalize hright : read_line base right.s left.base_state right.line buf fuel = y at hread
  rw [hstate] at hright
  cases hread with
  | fail error =>
    simp only [read_header_pass, hleft, hright, bind_fail]
    exact .fail error
  | div =>
    simp only [read_header_pass, hleft, hright, bind_div]
    exact .div
  | @ok a b hread =>
    obtain ⟨r, s, base_state, line⟩ := a
    obtain ⟨_, s', _, line'⟩ := b
    obtain ⟨hr, hs, hbase_state, htext⟩ := hread
    simp only at hr hs hbase_state htext
    subst hr hbase_state
    by_cases hfailed : is_failed r = true
    · simp only [read_header_pass, hleft, hright, bind_ok, if_pos hfailed]
      exact .ok (.done ⟨rfl, hs, rfl, htext, hlength⟩)
    · rw [Bool.not_eq_true] at hfailed
      obtain ⟨text, hholds, hholds'⟩ := htext
      by_cases hempty : text = []
      · subst hempty
        rw [read_header_pass_end hfailed hleft hholds, read_header_pass_end hfailed hright hholds']
        exact .ok (.done ⟨rfl, hs, rfl, ⟨[], hholds, hholds'⟩, hlength⟩)
      · obtain ⟨found, hpass⟩ := read_header_pass_line hfailed hleft hholds hempty
        obtain ⟨found', hpass'⟩ := read_header_pass_line hfailed hright hholds' hempty
        rw [hpass, hpass']
        exact .ok (.cont ⟨hs, rfl, ⟨text, hholds, hholds'⟩, hlength⟩)

/-- Two contexts that `get_context` cannot tell apart. -/
structure ContextAlike (left right : HttpListenerContext σ) : Prop where
  created : left.m_is_created = right.m_is_created
  client : left.m_client = right.m_client
  stream : left.attached.Alike 256 right.attached

/-- What `get_context` does with the response: nothing when it fails, and
otherwise it is opened with its defaults. -/
def Answered (allocator : Allocator) (ctx : HttpListenerContext σ) (heap : Heap)
    (answer : ret_t × HttpListenerContext σ × Heap) : Prop :=
  is_failed answer.1 = true ∧ answer.2.1.m_response = ctx.m_response ∧ answer.2.2.live = heap.live ∧
    (ctx.m_stream.m_base_stream = true → answer.2.1.m_stream.m_base_stream = true) ∨
  answer.1 = kOk ∧ answer.2.1.m_stream.m_base_stream = true ∧ ∃ m_stream before, before.live = heap.live ∧
    ctx.m_response.m_stream.create allocator before = ok (kOk, m_stream, answer.2.2) ∧
    answer.2.1.m_response =
      { m_is_opened := true, m_status_code := 200, m_content_type := ascii "text/plain", m_stream }

theorem Answered.of_same {allocator : Allocator} {ctx other : HttpListenerContext σ}
    {heap otherHeap : Heap} {answer : ret_t × HttpListenerContext σ × Heap}
    (h : Answered allocator ctx heap answer) (hresponse : ctx.m_response = other.m_response)
    (hlive : heap.live = otherHeap.live) (hstream : ctx.m_stream = other.m_stream) :
    Answered allocator other otherHeap answer := by
  rcases h with ⟨hfailed, hkept, hblocks, hattached⟩ | ⟨hok, hbase, m_stream, before, hbefore, hcreate, hopened⟩
  · exact .inl ⟨hfailed, hkept.trans hresponse, hblocks.trans hlive, hstream ▸ hattached⟩
  · exact .inr ⟨hok, hbase, m_stream, before, hbefore.trans hlive, hresponse ▸ hcreate, hopened⟩

/-- Two answers of `get_context`, on `left` and on `right`, that agree on the
request. -/
structure Served (allocator : Allocator) (left right : HttpListenerContext σ) (leftHeap rightHeap : Heap)
    (x y : ret_t × HttpListenerContext σ × Heap) : Prop where
  ret : x.1 = y.1
  context : ContextAlike x.2.1 y.2.1
  method : x.1 = kOk → x.2.1.m_request.m_method = y.2.1.m_request.m_method
  uri : x.1 = kOk → x.2.1.m_request.m_uri = y.2.1.m_request.m_uri
  left_answered : Answered allocator left leftHeap x
  right_answered : Answered allocator right rightHeap y

variable {allocator : Allocator} {conn : Stream σ}

/-- Two failures with one error. -/
theorem served_refused {left right next next' : HttpListenerContext σ}
    {leftHeap rightHeap heap heap' : Heap} {r : ret_t} (hfailed : is_failed r = true)
    (halike : ContextAlike next next') (hresponse : next.m_response = left.m_response)
    (hresponse' : next'.m_response = right.m_response) (hlive : heap.live = leftHeap.live)
    (hlive' : heap'.live = rightHeap.live)
    (hattached : left.m_stream.m_base_stream = true → next.m_stream.m_base_stream = true)
    (hattached' : right.m_stream.m_base_stream = true → next'.m_stream.m_base_stream = true) :
    (ok (r, next, heap) : Exec _).Rel (Served allocator left right leftHeap rightHeap) (ok (r, next', heap')) := by
  have hne : r ≠ kOk := by
    rintro rfl
    exact absurd hfailed (by decide)
  exact .ok ⟨rfl, halike, fun hok => absurd hok hne, fun hok => absurd hok hne,
    .inl ⟨hfailed, hresponse, hlive, hattached⟩, .inl ⟨hfailed, hresponse', hlive', hattached'⟩⟩

theorem ContextAlike.with_stream {left right : HttpListenerContext σ}
    (hcreated : left.m_is_created = right.m_is_created) {s s' : BufferedStream} (hs : s.Alike 256 s')
    (socket : Socket σ) :
    ContextAlike (left.with_stream s socket) (right.with_stream s' socket) := by
  obtain ⟨unread, hleft, hright⟩ := id hs
  refine ⟨hcreated, rfl, ?_⟩
  rw [HttpListenerContext.attached_eq hleft.attached, HttpListenerContext.attached_eq hright.attached]
  exact hs

theorem read_request_rel (hgrants : allocator.Grants) (hconn : conn.ReturnsAtMost)
    {left right : HttpListenerContext σ} (h : ContextAlike left right) (leftHeap rightHeap : Heap)
    {line line' : StringBuffer} (hline : LineAlike 1024 line line') (buf : UInt8) (fuel : Nat) :
    (HttpListener.read_request allocator conn left leftHeap line buf fuel).Rel
      (Served allocator left right leftHeap rightHeap)
      (HttpListener.read_request allocator conn right rightHeap line' buf fuel) := by
  have hbase := SocketStream.returnsAtMost hconn
  have hcreated := h.created
  unfold HttpListener.read_request
  rw [h.client]
  apply (read_line_rel hbase h.stream right.m_client.m_socket hline buf fuel).bind
  rintro ⟨r, s, socket, line⟩ ⟨_, s', _, line'⟩ ⟨rfl, hs, rfl, text, hholds, hholds'⟩
  simp only at hs hholds hholds' ⊢
  have halike := ContextAlike.with_stream hcreated hs socket
  obtain ⟨unread, hleft, hright⟩ := id hs
  split
  · exact served_refused ‹_› halike rfl rfl rfl rfl (fun _ => hleft.attached) fun _ => hright.attached
  by_cases hspace : 32 ∈ text
  · have htext := hholds.length_le_capacity
    obtain ⟨parsed, hparse, hmethod, hurl, _⟩ := parse_request_line_spec hholds.to_ref (by omega) hspace
    obtain ⟨parsed', hparse', hmethod', hurl', _⟩ := parse_request_line_spec hholds'.to_ref (by omega) hspace
    have hmethodLength := ConstStringRef.length_before_le 32 text
    have hurlLength := ConstStringRef.length_before_le 32 (ConstStringRef.after 32 text)
    have hafterLength := ConstStringRef.length_after_le 32 text
    simp only [hparse, hparse', bind_ok, is_failed_kOk, Bool.false_eq_true, if_false, Uri.init,
      string_of_ref_granted hgrants _ hmethod (by omega), string_of_ref_granted hgrants _ hmethod' (by omega),
      string_of_ref_granted hgrants _ hurl (by omega), string_of_ref_granted hgrants _ hurl' (by omega)]
    have hstart : HeadersAlike 1024 { s, base_state := socket, line }
        { s := s', base_state := socket, line := line' } :=
      ⟨hs, rfl, ⟨text, hholds, hholds'⟩, rfl⟩
    apply (loop_rel (fun _ _ => read_header_pass_rel hbase buf fuel) hstart fuel).bind
    rintro ⟨r, headers⟩ ⟨_, headers'⟩ ⟨rfl, hs, hstate, _, hlength⟩
    simp only at hs hstate hlength ⊢
    rw [hstate, hlength]
    obtain ⟨unread, hleft, hright⟩ := id hs
    split
    · refine served_refused ‹_› (ContextAlike.with_stream ?_ hs _) rfl rfl rfl rfl (fun _ => hleft.attached)
        fun _ => hright.attached
      exact hcreated
    · obtain ⟨stream, heap, hcreate⟩ := HttpListenerResponseStream.create_total hgrants left.m_response.m_stream
        leftHeap.asked.asked.asked
      obtain ⟨stream', heap', hcreate'⟩ := HttpListenerResponseStream.create_total hgrants right.m_response.m_stream
        rightHeap.asked.asked.asked
      have htype := string_of_c_str_granted hgrants leftHeap.asked.asked
        (by decide : (ascii "text/plain").length + 8 < 2 ^ 32)
      have htype' := string_of_c_str_granted hgrants rightHeap.asked.asked
        (by decide : (ascii "text/plain").length + 8 < 2 ^ 32)
      simp only [htype, htype', bind_ok, HttpListenerContext.with_stream, hcreate, hcreate']
      refine .ok ⟨rfl, ⟨rfl, rfl, ?_⟩, fun _ => rfl, fun _ => rfl,
        .inr ⟨rfl, hleft.attached, stream, leftHeap.asked.asked.asked, rfl, hcreate, rfl⟩,
        .inr ⟨rfl, hright.attached, stream', rightHeap.asked.asked.asked, rfl, hcreate', rfl⟩⟩
      rw [HttpListenerContext.attached_eq hleft.attached, HttpListenerContext.attached_eq hright.attached]
      exact hs
  · have hfailed : is_failed kEFormat = true := by decide
    simp only [parse_request_line_none hholds.to_ref hspace, parse_request_line_none hholds'.to_ref hspace, bind_ok,
      if_pos hfailed]
    exact served_refused hfailed halike rfl rfl rfl rfl (fun _ => hleft.attached) fun _ => hright.attached

/-- `get_context` on two contexts that it cannot tell apart gives the same
method and URL, or the same error, and leaves the contexts alike. -/
theorem get_context_rel (hgrants : allocator.Grants) (hconn : conn.ReturnsAtMost)
    {left right : HttpListenerContext σ} (h : ContextAlike left right) (leftHeap rightHeap : Heap)
    (listener : HttpListener) (accepted : Int × σ) (buf : UInt8) (fuel : Nat) :
    (listener.get_context allocator conn left leftHeap accepted buf fuel).Rel
      (Served allocator left right leftHeap rightHeap)
      (listener.get_context allocator conn right rightHeap accepted buf fuel) := by
  have hcreated := h.created
  unfold HttpListener.get_context
  split
  · exact served_refused (by decide) h rfl rfl rfl rfl id id
  have hguard : (left.m_is_created = true) = (right.m_is_created = true) := by rw [hcreated]
  simp only [hguard]
  split
  · exact served_refused (by decide) h rfl rfl rfl rfl id id
  obtain ⟨line, hline, hholds⟩ := line_created hgrants leftHeap
  obtain ⟨line', hline', hholds'⟩ := line_created hgrants rightHeap
  obtain ⟨r, socket, haccept⟩ :=
    Socket.accept_heap hgrants listener.m_server.m_socket right.m_client.m_socket accepted
  obtain ⟨heap, hleft, hlive⟩ := haccept leftHeap.asked
  obtain ⟨heap', hright, hlive'⟩ := haccept rightHeap.asked
  have halike : ContextAlike { left with m_client := { m_socket := socket } }
      { right with m_client := { m_socket := socket } } := ⟨hcreated, rfl, h.stream⟩
  simp only [hline, hline', TcpServer.accept_tcp_client, h.client, hleft, hright]
  split
  · exact served_refused ‹_› halike rfl rfl hlive hlive' id id
  · have hrequest := read_request_rel hgrants hconn halike heap heap' ⟨[], hholds, hholds'⟩ buf fuel
    refine hrequest.mono fun x y hserved => ?_
    exact ⟨hserved.ret, hserved.context, hserved.method, hserved.uri, hserved.left_answered.of_same rfl hlive rfl,
      hserved.right_answered.of_same rfl hlive' rfl⟩

end kfw.web
