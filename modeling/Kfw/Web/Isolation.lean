import Kfw.Web.RoundTrip

open exec Result kfw.io kfw.net

namespace kfw.web

variable {σ : Type} {allocator : Allocator} {conn : Stream σ} {P : Addr → Addr → Prop}

/-- Two contexts that are alike, with open responses of one status and type and
nothing written to them, respond alike: their connections end in one state. -/
theorem respond_rel (hgrants : allocator.Grants) (hwords : allocator.GivesWord P)
    {left right : HttpListenerContext σ} {leftHeap rightHeap : Heap} (h : ContextAlike left right)
    (hattached : left.m_stream.m_base_stream = true) (hattached' : right.m_stream.m_base_stream = true)
    (hopened : left.m_response.m_is_opened = true) (hopened' : right.m_response.m_is_opened = true)
    (htype : left.m_response.m_content_type = right.m_response.m_content_type) {full full' : List Addr}
    (hstored : left.m_response.m_stream.m_chunk_buffer.Stored P 512 leftHeap full [])
    (hstored' : right.m_response.m_stream.m_chunk_buffer.Stored P 512 rightHeap full' [])
    {writes : List (List UInt8)} (hwrites : ∀ bytes ∈ writes, bytes.length < 2 ^ 32)
    (hends : ∀ (cb : ChunkBuffer) heap full, cb.Stored P 512 heap full writes.flatten →
      heap.word cb.m_current_chunk = nullptr) (status_code : Int32) {fuel : Nat}
    (hfuel : 2 * writes.flatten.length + 2 ≤ fuel) :
    (left.respond allocator conn leftHeap status_code writes fuel).Rel
      (fun x y => x.1.m_client = y.1.m_client)
      (right.respond allocator conn rightHeap status_code writes fuel) := by
  have hstart : ({ left with m_response.m_status_code := status_code } :
      HttpListenerContext σ).m_response.m_stream.m_chunk_buffer.Stored P 512 leftHeap full [] := hstored
  have hstart' : ({ right with m_response.m_status_code := status_code } :
      HttpListenerContext σ).m_response.m_stream.m_chunk_buffer.Stored P 512 rightHeap full' [] := hstored'
  obtain ⟨m_stream, heap, nextFull, hbody, hnext⟩ :=
    HttpListenerContext.write_body_spec hgrants hwords hstart hwrites
      (by omega : 2 * writes.flatten.length + 1 < fuel)
  obtain ⟨m_stream', heap', nextFull', hbody', hnext'⟩ :=
    HttpListenerContext.write_body_spec hgrants hwords hstart' hwrites
      (by omega : 2 * writes.flatten.length + 1 < fuel)
  rw [List.nil_append] at hnext hnext'
  obtain ⟨unread, hleft, hright⟩ := h.stream
  rw [HttpListenerContext.attached_eq hattached] at hleft
  rw [HttpListenerContext.attached_eq hattached'] at hright
  have hs : ({ left with m_response := { left.m_response with m_status_code := status_code, m_stream } } :
      HttpListenerContext σ).m_stream.Unbuffered := hleft.unbuffered
  have hs' : ({ right with
      m_response := { right.m_response with m_status_code := status_code, m_stream := m_stream' } } :
      HttpListenerContext σ).m_stream.Unbuffered := hright.unbuffered
  simp only [HttpListenerContext.respond, hbody, hbody', bind_ok]
  exact HttpListenerContext.close_response_rel hs hs' h.client hopened hopened' rfl htype hnext hnext'
    (hends _ _ _ hnext) (hends _ _ _ hnext') fuel

/-- What the peer of a new connection gets out of a context: the answer of
`get_context`, the method and the URL it found, and the connection as the
response leaves it. -/
structure Outcome (σ : Type) where
  ret : ret_t
  request : Option (List UInt8 × List UInt8)
  socket : Socket σ
  deriving DecidableEq

namespace Session

/-- The next request on a context and the response to it. -/
def exchange (allocator : Allocator) (conn : Stream σ) (session : Session σ) (listener : HttpListener)
    (accepted : Int × σ) (buf : UInt8) (status_code : Int32) (writes : List (List UInt8)) (fuel : Nat) :
    Exec (Outcome σ) := do
  let (ret, ctx, heap) ← listener.get_context allocator conn session.ctx session.heap accepted buf fuel
  if is_failed ret then ok { ret, request := none, socket := ctx.m_client.m_socket }
  else do
    let (closed, _) ← ctx.respond allocator conn heap status_code writes fuel
    ok {
      ret
      request := some (ctx.m_request.m_method, ctx.m_request.m_uri.m_raw_url)
      socket := closed.m_client.m_socket }

/-- The context after `dispose`. -/
def disposed (session : Session σ) : Session σ := { session with ctx := session.ctx.dispose }

/-- Nothing of the connection was received and not read, and nothing was written
to the response and not sent. -/
structure NothingLeft (session : Session σ) : Prop where
  read : session.ctx.m_stream.m_read_buffer_rp = session.ctx.m_stream.m_read_buffer_wp
  body : session.body.IsEmpty

instance (session : Session σ) : Decidable session.NothingLeft :=
  decidable_of_iff (session.ctx.m_stream.m_read_buffer_rp = session.ctx.m_stream.m_read_buffer_wp ∧
    session.body.IsEmpty) ⟨fun h => ⟨h.1, h.2⟩, fun h => ⟨h.read, h.body⟩⟩

variable {session session' : Session σ}

theorem NothingLeft.unread_eq (h : session.NothingLeft) {unread : List UInt8}
    (hstream : session.ctx.attached.ReadOnly 256 unread) : unread = [] := by
  have hread : session.ctx.attached.m_read_buffer_rp = session.ctx.attached.m_read_buffer_wp := by
    unfold HttpListenerContext.attached BufferedStream.init
    split
    · exact h.read
    · exact h.read
  rw [hstream.unread_eq, hread]
  simp

/-- Disposed contexts with nothing left are alike. -/
theorem disposed_alike (h : session.Kept P) (h' : session'.Kept P)
    (hcreated : session.ctx.m_is_created = true) (hcreated' : session'.ctx.m_is_created = true)
    (hleft : session.NothingLeft) (hleft' : session'.NothingLeft) :
    ContextAlike session.disposed.ctx session'.disposed.ctx := by
  obtain ⟨unread, hstream⟩ := h.stream
  obtain ⟨unread', hstream'⟩ := h'.stream
  obtain rfl := hleft.unread_eq hstream
  obtain rfl := hleft'.unread_eq hstream'
  simp only [disposed, HttpListenerContext.dispose, hcreated, hcreated', not_true, if_false]
  exact ⟨rfl, rfl, [], hstream, hstream'⟩

theorem NothingLeft.disposed_keeps (hleft : session.NothingLeft) (h : session.Kept P) :
    session.disposed.body.Keeps P 512 session.disposed.heap [] := by
  obtain ⟨data, hbody⟩ := h.body
  obtain rfl := hbody.isEmpty_iff.mp hleft.body
  unfold disposed Session.body HttpListenerContext.dispose
  split
  · exact hbody
  · exact hbody

/-- Contexts that are alike, with nothing in their response buffers, do the same
with a new connection. -/
theorem exchange_eq (hgrants : allocator.Grants) (hwords : allocator.GivesWord P)
    (hconn : conn.ReturnsAtMost) (h : ContextAlike session.ctx session'.ctx)
    (hbody : session.body.Keeps P 512 session.heap [])
    (hbody' : session'.body.Keeps P 512 session'.heap []) (listener : HttpListener) (accepted : Int × σ)
    (buf : UInt8) (status_code : Int32) {writes : List (List UInt8)}
    (hwrites : ∀ bytes ∈ writes, bytes.length < 2 ^ 32)
    (hends : ∀ (cb : ChunkBuffer) heap full, cb.Stored P 512 heap full writes.flatten →
      heap.word cb.m_current_chunk = nullptr) {fuel : Nat}
    (hfuel : 2 * writes.flatten.length + 2 ≤ fuel) :
    session.exchange allocator conn listener accepted buf status_code writes fuel =
      session'.exchange allocator conn listener accepted buf status_code writes fuel := by
  apply Rel.eq
  apply (get_context_rel hgrants hconn h session.heap session'.heap listener accepted buf fuel).bind
  rintro ⟨ret, ctx, heap⟩ ⟨_, ctx', heap'⟩ hserved
  obtain rfl : ret = _ := hserved.ret
  have hclient : ctx.m_client = ctx'.m_client := hserved.context.client
  simp only
  split
  · rw [hclient]
    exact .ok rfl
  · rename_i hfailed
    -- a request that was read: both responses are open and empty
    obtain rfl : ret = kOk := by
      rcases hserved.left_answered with ⟨hcontra, _⟩ | ⟨hok, _⟩
      · exact absurd hcontra hfailed
      · exact hok
    obtain ⟨hattached, hopened, _, htype, full, hstored⟩ :=
      stored_of_answered hgrants hbody hserved.left_answered
    obtain ⟨hattached', hopened', _, htype', full', hstored'⟩ :=
      stored_of_answered hgrants hbody' hserved.right_answered
    have hmethod : ctx.m_request.m_method = ctx'.m_request.m_method := hserved.method rfl
    have huri : ctx.m_request.m_uri = ctx'.m_request.m_uri := hserved.uri rfl
    apply (respond_rel hgrants hwords hserved.context hattached hattached' hopened hopened'
      (htype.trans htype'.symm) hstored hstored' hwrites hends status_code hfuel).bind
    rintro ⟨closed, closedHeap⟩ ⟨closed', closedHeap'⟩ hclosed
    simp only at hclosed
    simp only [hmethod, huri, hclosed]
    exact .ok rfl

/-- Two contexts, each used in any way and then disposed, with nothing left of
the earlier connections and responses: a new request and its response come out
the same on both, if the body fits in one chunk or new memory is zero. -/
theorem requests_isolated (hgrants : allocator.Grants) (hconn : conn.ReturnsAtMost)
    {m_buffer m_buffer' : Vector UInt8 256} {start start' : Heap} {before before' : Nat}
    {history history' : List (ContextCall σ)}
    (hhistory : steps (call allocator conn before) { ctx := .fresh m_buffer, heap := start } history =
      ok session)
    (hhistory' : steps (call allocator conn before') { ctx := .fresh m_buffer', heap := start' } history' =
      ok session')
    (hcreated : session.ctx.m_is_created = true) (hcreated' : session'.ctx.m_is_created = true)
    (hleft : session.NothingLeft) (hleft' : session'.NothingLeft) (listener : HttpListener)
    (accepted : Int × σ) (buf : UInt8) (status_code : Int32) {writes : List (List UInt8)}
    (hwrites : ∀ bytes ∈ writes, bytes.length < 2 ^ 32)
    (hmemory : writes.flatten.length ≤ 512 ∨ allocator.GivesWord fun _ link => link = nullptr) :
    ∃ enough, ∀ fuel, enough ≤ fuel →
      session.disposed.exchange allocator conn listener accepted buf status_code writes fuel =
        session'.disposed.exchange allocator conn listener accepted buf status_code writes fuel := by
  refine ⟨2 * writes.flatten.length + 2, fun fuel hfuel => ?_⟩
  have hsame : ∀ P, allocator.GivesWord P →
      (∀ (cb : ChunkBuffer) heap full, cb.Stored P 512 heap full writes.flatten →
        heap.word cb.m_current_chunk = nullptr) →
      session.disposed.exchange allocator conn listener accepted buf status_code writes fuel =
        session'.disposed.exchange allocator conn listener accepted buf status_code writes fuel := by
    intro P hwords hends
    have hkept := kept_of_calls hgrants hwords hconn hhistory
    have hkept' := kept_of_calls hgrants hwords hconn hhistory'
    exact exchange_eq hgrants hwords hconn (disposed_alike hkept hkept' hcreated hcreated' hleft hleft')
      (hleft.disposed_keeps hkept) (hleft'.disposed_keeps hkept') listener accepted buf status_code hwrites hends
      hfuel
  rcases hmemory with hshort | hzero
  · apply hsame (fun _ _ => True) fun _ _ _ _ _ => trivial
    intro cb heap full hstored
    exact (hstored.ends.resolve_right fun hend => hend.1 (hstored.full_eq_nil hshort)).2
  · exact hsame _ hzero fun cb heap full hstored => hstored.end_eq

/-- A context that served one request without an answer, and one that served a
request whose body was answered. -/
theorem requests_isolated_closed :
    ∃ session session', steps (call (.bump id) Wire.stream 12)
        { ctx := .fresh (Vector.replicate 256 0), heap := .empty }
        [.get_context HttpListener.serving (ERR_OK, { segments := [ascii "A \r\n\r\n"] }) 0] = ok session ∧
      steps (call (.bump id) Wire.stream 20) { ctx := .fresh (Vector.replicate 256 1), heap := .empty }
        [.get_context HttpListener.serving (ERR_OK, { segments := [ascii "C /x\r\n\r\n"] }) 0,
          .write (ascii "Y") (by decide), .close] = ok session' ∧
      ∃ enough, ∀ fuel, enough ≤ fuel →
        session.disposed.exchange (.bump id) Wire.stream HttpListener.serving
          (ERR_OK, { segments := [ascii "B \r\n\r\n"] }) 0 200 [ascii "Z"] fuel =
        session'.disposed.exchange (.bump id) Wire.stream HttpListener.serving
          (ERR_OK, { segments := [ascii "B \r\n\r\n"] }) 0 200 [ascii "Z"] fuel := by
  have hrun : (steps (call (.bump id) Wire.stream 12) { ctx := .fresh (Vector.replicate 256 0), heap := .empty }
      [.get_context HttpListener.serving (ERR_OK, { segments := [ascii "A \r\n\r\n"] }) 0] >>= fun session =>
      ok (session.ctx.m_is_created, decide session.NothingLeft)) = ok (true, true) := by
    decide +kernel
  have hrun' : (steps (call (.bump id) Wire.stream 20) { ctx := .fresh (Vector.replicate 256 1), heap := .empty }
      [.get_context HttpListener.serving (ERR_OK, { segments := [ascii "C /x\r\n\r\n"] }) 0,
        .write (ascii "Y") (by decide), .close] >>= fun session =>
      ok (session.ctx.m_is_created, decide session.NothingLeft)) = ok (true, true) := by
    decide +kernel
  obtain ⟨session, hsession, hstate⟩ := bind_eq_ok_iff.mp hrun
  obtain ⟨session', hsession', hstate'⟩ := bind_eq_ok_iff.mp hrun'
  obtain ⟨hcreated, hleft⟩ := Prod.mk.inj (ok.inj hstate)
  obtain ⟨hcreated', hleft'⟩ := Prod.mk.inj (ok.inj hstate')
  exact ⟨session, session', hsession, hsession', requests_isolated (Allocator.bump_grants id)
    Wire.stream_returnsAtMost hsession hsession' hcreated hcreated' (of_decide_eq_true hleft)
    (of_decide_eq_true hleft') HttpListener.serving _ 0 200 (by decide) (.inl (by decide))⟩

/-- One byte after the request is left in the read buffer when the context is
disposed, and is read as the beginning of the next request. -/
theorem request_reads_leftover :
    (steps (call (.bump id) Wire.stream 12) { ctx := .fresh (Vector.replicate 256 0), heap := .empty }
        [.get_context HttpListener.serving (ERR_OK, { segments := [ascii "A \r\n\r\nX"] }) 0] >>= fun session =>
      session.disposed.exchange (.bump id) Wire.stream HttpListener.serving
        (ERR_OK, { segments := [ascii "B \r\n\r\n"] }) 0 200 [] 12 >>= fun outcome =>
      ok (session.ctx.m_is_created, outcome.ret, outcome.request)) = ok (true, kOk, some (ascii "XB", [])) ∧
    (steps (call (.bump id) Wire.stream 12) { ctx := .fresh (Vector.replicate 256 0), heap := .empty }
        [.get_context HttpListener.serving (ERR_OK, { segments := [ascii "A \r\n\r\n"] }) 0] >>= fun session =>
      session.disposed.exchange (.bump id) Wire.stream HttpListener.serving
        (ERR_OK, { segments := [ascii "B \r\n\r\n"] }) 0 200 [] 12 >>= fun outcome =>
      ok (session.ctx.m_is_created, outcome.ret, outcome.request)) = ok (true, kOk, some (ascii "B", [])) :=
  ⟨by decide +kernel, by decide +kernel⟩

end Session

end kfw.web
