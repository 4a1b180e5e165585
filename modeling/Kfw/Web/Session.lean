import Kfw.Lib.Run
import Kfw.Web.ChunkBuffer.FailedWrite
import Kfw.Web.Lockstep
import Kfw.Web.Response.Lockstep

open exec Result kfw.io kfw.net

namespace kfw.web

variable {σ : Type}

/-- The calls that a user of a context can make on it and on its response; the
stream of the request is not accessible. A write has a 32-bit size. -/
inductive ContextCall (σ : Type) where
  | get_context (listener : HttpListener) (accepted : Int × σ) (buf : UInt8)
  | set_status_code (value : Int32)
  | set_content_type (value : ConstStringRef)
  | write (data : List UInt8) (hdata : data.length < 2 ^ 32)
  | close
  | dispose

/-- A context with the heap it lives in. -/
structure Session (σ : Type) where
  ctx : HttpListenerContext σ
  heap : Heap

namespace Session

/-- One call, whatever it answers. -/
def call (allocator : Allocator) (conn : Stream σ) (fuel : Nat) (session : Session σ) :
    ContextCall σ → Exec (Session σ)
  | .get_context listener accepted buf => do
    let (_, ctx, heap) ← listener.get_context allocator conn session.ctx session.heap accepted buf fuel
    ok { ctx, heap }
  | .set_status_code value => ok { session with ctx.m_response.m_status_code := value }
  | .set_content_type value => do
    let (m_content_type, heap) ← string_of_ref allocator session.heap value
    ok { ctx := { session.ctx with m_response.m_content_type := m_content_type }, heap }
  | .write data _ => do
    let (_, m_stream, heap) ← session.ctx.m_response.m_stream.write allocator session.heap data fuel
    ok { ctx := { session.ctx with m_response.m_stream := m_stream }, heap }
  | .close => do
    let (ctx, heap) ← session.ctx.close_response conn session.heap fuel
    ok { ctx, heap }
  | .dispose => ok { session with ctx := session.ctx.dispose }

/-- The chunk buffer of the response. -/
def body (session : Session σ) : ChunkBuffer := session.ctx.m_response.m_stream.m_chunk_buffer

/-- What holds of a context whatever was called on it, over an allocator whose
memory starts with words as `P` says. -/
structure Kept (P : Addr → Addr → Prop) (session : Session σ) : Prop where
  stream : ∃ unread, session.ctx.attached.ReadOnly 256 unread
  opened : session.ctx.m_response.m_is_opened = true → session.ctx.m_stream.m_base_stream = true
  body : ∃ data, session.body.Keeps P 512 session.heap data

variable {allocator : Allocator} {conn : Stream σ} {session next : Session σ} {fuel : Nat}
  {P : Addr → Addr → Prop}

theorem Kept.alike (h : session.Kept P) : ContextAlike session.ctx session.ctx := by
  obtain ⟨unread, hstream⟩ := h.stream
  exact ⟨rfl, rfl, unread, hstream, hstream⟩

/-- Opening the response keeps what its buffer has, and gives it a chunk if it
has none. -/
theorem body_create (hgrants : allocator.Grants) {self m_stream : HttpListenerResponseStream}
    {heap before nextHeap : Heap} {data : List UInt8}
    (hbody : self.m_chunk_buffer.Keeps P 512 heap data) (hbefore : before.live = heap.live)
    (hcreate : self.create allocator before = ok (kOk, m_stream, nextHeap)) :
    ∃ full, m_stream.m_chunk_buffer.Stored P 512 nextHeap full data := by
  rcases hbody with ⟨hvacant, rfl⟩ | ⟨full, hstored⟩
  · obtain ⟨next, last, hgranted, hholds, hword, hsize⟩ :=
      HttpListenerResponseStream.create_granted hgrants hvacant.first_eq before
    rw [hcreate] at hgranted
    cases hgranted
    exact ⟨[], hholds, .inl ⟨rfl, hword⟩, hsize, .inl rfl⟩
  · rw [HttpListenerResponseStream.create_again allocator hstored.holds.first_ne_nullptr] at hcreate
    cases hcreate
    exact ⟨full, hstored.of_live hbefore⟩

/-- A request that was read opens the response, over what its buffer had. -/
theorem stored_of_answered (hgrants : allocator.Grants) {data : List UInt8}
    (hbody : session.body.Keeps P 512 session.heap data) {ctx : HttpListenerContext σ} {heap : Heap}
    (hanswered : Answered allocator session.ctx session.heap (kOk, ctx, heap)) :
    ctx.m_stream.m_base_stream = true ∧ ctx.m_response.m_is_opened = true ∧
      ctx.m_response.m_status_code = 200 ∧ ctx.m_response.m_content_type = ascii "text/plain" ∧
      ∃ full, ctx.m_response.m_stream.m_chunk_buffer.Stored P 512 heap full data := by
  rcases hanswered with ⟨hfailed, _⟩ | ⟨_, hattached, m_stream, before, hbefore, hcreate, hresponse⟩
  · exact absurd hfailed (by simp)
  · simp only at hresponse hattached
    rw [hresponse]
    exact ⟨hattached, rfl, rfl, rfl, body_create hgrants hbody hbefore hcreate⟩

theorem Kept.get_context (h : session.Kept P) (hgrants : allocator.Grants) (hconn : conn.ReturnsAtMost)
    {listener : HttpListener} {accepted : Int × σ} {buf : UInt8} {r : ret_t}
    {ctx : HttpListenerContext σ} {heap : Heap}
    (hget : listener.get_context allocator conn session.ctx session.heap accepted buf fuel = ok (r, ctx, heap)) :
    Kept P { ctx, heap } := by
  have hserved := (get_context_rel hgrants hconn h.alike session.heap session.heap listener accepted buf
    fuel).of_ok hget hget
  obtain ⟨unread, hstream, _⟩ := hserved.context.stream
  obtain ⟨data, hbody⟩ := h.body
  have hanswered := hserved.left_answered
  rcases id hanswered with ⟨_, hresponse, hlive, hattached⟩ | ⟨hok, _⟩
  · simp only at hresponse hlive hattached
    refine ⟨⟨unread, hstream⟩, fun hopened => hattached (h.opened (hresponse ▸ hopened)), data, ?_⟩
    simp only [Session.body, hresponse]
    exact hbody.of_live hlive
  · obtain rfl : r = kOk := hok
    obtain ⟨hattached, _, _, _, hstored⟩ := stored_of_answered hgrants hbody hanswered
    exact ⟨⟨unread, hstream⟩, fun _ => hattached, data, .inr hstored⟩

theorem Kept.write (h : session.Kept P) (hgrants : allocator.Grants) (hwords : allocator.GivesWord P)
    {data : List UInt8} (hdata : data.length < 2 ^ 32) {r : RetVal UInt32}
    {m_stream : HttpListenerResponseStream} {heap : Heap}
    (hwrite : session.ctx.m_response.m_stream.write allocator session.heap data fuel = ok (r, m_stream, heap)) :
    Kept P { ctx := { session.ctx with m_response.m_stream := m_stream }, heap } := by
  obtain ⟨⟨ret, cb, nextHeap⟩, hchunks, hresult⟩ := bind_eq_ok_iff.mp hwrite
  have hnext : m_stream = { m_chunk_buffer := cb } ∧ heap = nextHeap := by
    simp only at hresult
    split at hresult <;> cases hresult <;> exact ⟨rfl, rfl⟩
  obtain ⟨rfl, rfl⟩ := hnext
  refine ⟨h.stream, h.opened, ?_⟩
  obtain ⟨before, ⟨hvacant, hbefore⟩ | ⟨full, hstored⟩⟩ := h.body
  · obtain ⟨rfl, _⟩ := ChunkBuffer.write_without_chunk_ok hvacant.current_eq hchunks
    exact ⟨before, .inl ⟨hvacant, hbefore⟩⟩
  · obtain ⟨_, nextFull, hnext⟩ := hstored.write_ok hgrants hwords hdata hchunks
    exact ⟨before ++ data, .inr ⟨nextFull, hnext⟩⟩

theorem Kept.close (h : session.Kept P) {ctx : HttpListenerContext σ} {heap : Heap}
    (hclose : session.ctx.close_response conn session.heap fuel = ok (ctx, heap)) :
    Kept P { ctx, heap } := by
  unfold HttpListenerContext.close_response at hclose
  by_cases hopened : session.ctx.m_response.m_is_opened = true
  · simp only [hopened, not_true, if_false] at hclose
    obtain ⟨⟨r, closed, closedHeap⟩, hwrite, hresult⟩ := bind_eq_ok_iff.mp hclose
    cases hresult
    obtain ⟨unread, hstream⟩ := h.stream
    obtain ⟨data, hbody⟩ := h.body
    have hattached := HttpListenerContext.attached_eq (h.opened hopened)
    have hunbuffered : session.ctx.m_stream.Unbuffered := hattached ▸ hstream.unbuffered
    have hdispose : (session.body.dispose session.heap fuel).Rel (fun x _ => x.1.Vacant)
        (session.body.dispose session.heap fuel) :=
      .same _ fun _ hok => ChunkBuffer.vacant_of_dispose hbody.vacant hok
    have hclosed := (HttpListenerContext.write_response_rel hunbuffered hunbuffered rfl rfl rfl rfl
      (fun socket => send_chunks_self hunbuffered _ _ _ socket) hdispose).of_ok hwrite hwrite
    cases hclosed with
    | kept _ socket => exact ⟨⟨unread, hstream⟩, fun hcontra => absurd hcontra (by simp), data, hbody⟩
    | disposed socket hvacant =>
      exact ⟨⟨unread, hstream⟩, fun hcontra => absurd hcontra (by simp), [], .inl ⟨hvacant, rfl⟩⟩
  · rw [if_pos hopened] at hclose
    cases hclose
    exact h

theorem Kept.call (h : session.Kept P) (hgrants : allocator.Grants) (hwords : allocator.GivesWord P)
    (hconn : conn.ReturnsAtMost) {action : ContextCall σ}
    (hcall : session.call allocator conn fuel action = ok next) : next.Kept P := by
  cases action with
  | get_context listener accepted buf =>
    obtain ⟨⟨r, ctx, heap⟩, hget, hresult⟩ := bind_eq_ok_iff.mp hcall
    cases hresult
    exact h.get_context hgrants hconn hget
  | set_status_code value =>
    cases hcall
    exact ⟨h.stream, h.opened, h.body⟩
  | set_content_type value =>
    obtain ⟨⟨chars, heap⟩, hstring, hresult⟩ := bind_eq_ok_iff.mp hcall
    cases hresult
    obtain ⟨data, hbody⟩ := h.body
    exact ⟨h.stream, h.opened, data, hbody.of_live (string_of_ref_live hstring)⟩
  | write data hdata =>
    obtain ⟨⟨r, m_stream, heap⟩, hwrite, hresult⟩ := bind_eq_ok_iff.mp hcall
    cases hresult
    exact h.write hgrants hwords hdata hwrite
  | close =>
    obtain ⟨⟨ctx, heap⟩, hclose, hresult⟩ := bind_eq_ok_iff.mp hcall
    cases hresult
    exact h.close hclose
  | dispose =>
    cases hcall
    unfold HttpListenerContext.dispose
    split
    · exact h
    · exact ⟨h.stream, h.opened, h.body⟩

/-- A context before its first call. -/
theorem kept_fresh (m_buffer : Vector UInt8 256) (heap : Heap) :
    Kept P { ctx := (.fresh m_buffer : HttpListenerContext σ), heap } :=
  ⟨⟨[], HttpListenerContext.attached_unused rfl⟩, fun hopened => Bool.noConfusion hopened, [],
    .inl ⟨⟨rfl, rfl⟩, rfl⟩⟩

/-- Whatever was called on a context. -/
theorem kept_of_calls (hgrants : allocator.Grants) (hwords : allocator.GivesWord P)
    (hconn : conn.ReturnsAtMost) {m_buffer : Vector UInt8 256} {heap : Heap}
    {history : List (ContextCall σ)} {last : Session σ}
    (hhistory : steps (call allocator conn fuel) { ctx := .fresh m_buffer, heap } history = ok last) :
    last.Kept P :=
  steps_invariant (Kept P) (fun _ _ _ h hcall => h.call hgrants hwords hconn hcall)
    (kept_fresh m_buffer heap) hhistory

end Session

end kfw.web
