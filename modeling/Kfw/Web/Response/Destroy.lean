import Kfw.Web.ChunkBuffer.Frame
import Kfw.Web.Response.Lifecycle

open exec Result kfw.io kfw.net

namespace kfw.web

variable {σ : Type} {allocator : Allocator} {conn : Stream σ} {fuel : Nat}

/-- The connections that `dispose` closes. -/
def HttpListenerContext.dispose_closes (ctx : HttpListenerContext σ) : List σ :=
  if ¬ ctx.m_is_created then [] else ctx.m_client.m_socket.closes

/-- The destructor of a context: `dispose`, and then the destructors of its members, of which
those of the chunk buffer and of the client do something here. The strings of the request and
of the response give back their characters, which are not among the blocks that are followed.
The connections closed on the way are returned along. -/
def HttpListenerContext.destroy (ctx : HttpListenerContext σ) (heap : Heap) (fuel : Nat) :
    Exec (List σ × HttpListenerContext σ × Heap) := do
  let disposed := ctx.dispose
  let (m_chunk_buffer, heap) ← disposed.m_response.m_stream.m_chunk_buffer.dispose heap fuel
  ok (ctx.dispose_closes ++ disposed.m_client.m_socket.closes,
    { disposed with
      m_response.m_stream.m_chunk_buffer := m_chunk_buffer, m_client := disposed.m_client.dispose }, heap)

theorem HttpListenerContext.dispose_response (ctx : HttpListenerContext σ) :
    ctx.dispose.m_response = ctx.m_response := by
  unfold dispose
  split <;> rfl

/-- An open client is closed once, by `dispose` or by its own destructor. -/
theorem HttpListenerContext.dispose_closes_once (ctx : HttpListenerContext σ) :
    ctx.dispose_closes ++ ctx.dispose.m_client.m_socket.closes = ctx.m_client.m_socket.closes := by
  cases hcreated : ctx.m_is_created with
  | false => simp [dispose_closes, dispose, hcreated]
  | true => simp [dispose_closes, dispose, hcreated, TcpClient.dispose, Socket.close, Socket.closes]

/-- The destructor comes back if the chunk buffer can be disposed, and the client is closed. -/
theorem HttpListenerContext.destroy_of_dispose {ctx : HttpListenerContext σ} {heap freed : Heap} {cb : ChunkBuffer}
    (hdispose : ctx.m_response.m_stream.m_chunk_buffer.dispose heap fuel = ok (cb, freed)) :
    ∃ next, ctx.destroy heap fuel = ok (ctx.m_client.m_socket.closes, next, freed) ∧
      next.m_client.m_socket.m_context = none := by
  unfold destroy
  simp only [dispose_response, hdispose, bind_ok, dispose_closes_once]
  exact ⟨_, rfl, rfl⟩

section Chunks

variable {P : Addr → Addr → Prop} {start heap nextHeap : Heap}

theorem HttpListener.get_context_owns {listener : HttpListener} {ctx next : HttpListenerContext σ}
    {accepted : Int × σ} {buf : UInt8} {r : ret_t}
    (h : ctx.m_response.m_stream.m_chunk_buffer.Owns P start heap)
    (hget : listener.get_context allocator conn ctx heap accepted buf fuel = ok (r, next, nextHeap)) :
    next.m_response.m_stream.m_chunk_buffer.Owns P start nextHeap := by
  rcases get_context_stream hget with ⟨hstream, hlive⟩ | ⟨before, hbefore, hcreate⟩
  · rw [hstream]
    exact h.of_live hlive
  · obtain ⟨⟨rr, m_chunk_buffer, created⟩, hinit, hresult⟩ := bind_eq_ok_iff.mp hcreate
    rw [ok.injEq, Prod.mk.injEq, Prod.mk.injEq] at hresult
    obtain ⟨-, hstream, rfl⟩ := hresult
    rw [← hstream]
    exact (h.of_live hbefore).init (by decide) (by decide) hinit

theorem HttpListenerResponseStream.write_owns {self next : HttpListenerResponseStream} {data : List UInt8}
    {r : RetVal UInt32} (h : self.m_chunk_buffer.Owns P start heap) (hwords : allocator.GivesWord P)
    (hdata : data.length < 2 ^ 32) (hwrite : self.write allocator heap data fuel = ok (r, next, nextHeap)) :
    next.m_chunk_buffer.Owns P start nextHeap := by
  obtain ⟨⟨rr, cb, cbHeap⟩, hcb, hresult⟩ := bind_eq_ok_iff.mp hwrite
  have hnext := h.write hwords hdata hcb
  simp only at hresult
  split at hresult <;> cases hresult <;> exact hnext

end Chunks

namespace Session

variable {session next : Session σ} {start : Heap}

/-- Of the chunks in the heap, the response has those that are not in `start`. -/
def Owns (start : Heap) (session : Session σ) : Prop :=
  session.body.Owns (fun _ link => link = nullptr) start session.heap

theorem Owns.call (h : session.Owns start) (hzero : allocator.GivesWord fun _ link => link = nullptr)
    {action : ContextCall σ} (hcall : session.call allocator conn fuel action = ok next) : next.Owns start := by
  cases action with
  | get_context listener accepted buf =>
    obtain ⟨⟨r, ctx, heap⟩, hget, hresult⟩ := bind_eq_ok_iff.mp hcall
    cases hresult
    exact HttpListener.get_context_owns h hget
  | set_status_code value =>
    cases hcall
    exact h
  | set_content_type value =>
    obtain ⟨⟨chars, heap⟩, hstring, hresult⟩ := bind_eq_ok_iff.mp hcall
    cases hresult
    exact ChunkBuffer.Owns.of_live h (string_of_ref_live hstring)
  | write bytes hbytes =>
    obtain ⟨⟨r, m_stream, heap⟩, hwrite, hresult⟩ := bind_eq_ok_iff.mp hcall
    cases hresult
    exact HttpListenerResponseStream.write_owns h hzero hbytes hwrite
  | close =>
    obtain ⟨⟨ctx, heap⟩, hclose, hresult⟩ := bind_eq_ok_iff.mp hcall
    cases hresult
    rcases HttpListenerContext.close_response_stream hclose with ⟨hstream, rfl⟩ | hdispose
    · rw [Owns, body, hstream]
      exact h
    · obtain ⟨hlive, hvacant⟩ := ChunkBuffer.Owns.dispose h (ChunkBuffer.Owns.end_eq h) hdispose
      exact .inl ⟨hvacant, hlive⟩
  | dispose =>
    cases hcall
    rw [Owns, body, HttpListenerContext.dispose_response]
    exact h

/-- Whatever was called on a context, with or without success, and whatever of it was refused
memory: its destructor gives back every chunk that the calls have allocated, and closes its
client once if that is open. -/
theorem destroy_frees_chunks (hzero : allocator.GivesWord fun _ link => link = nullptr) {m_buffer : Vector UInt8 256}
    {history : List (ContextCall σ)} {last : Session σ}
    (hhistory : steps (call allocator conn fuel) { ctx := .fresh m_buffer, heap := start } history = ok last) :
    ∃ enough, ∀ fuel, enough ≤ fuel → ∃ ctx freed,
      last.ctx.destroy last.heap fuel = ok (last.ctx.m_client.m_socket.closes, ctx, freed) ∧
      freed.live = start.live ∧ ctx.m_client.m_socket.m_context = none := by
  have howns : last.Owns start := steps_invariant (Owns start) (fun _ _ _ h hcall => h.call hzero hcall)
    (.inl ⟨⟨rfl, rfl⟩, rfl⟩) hhistory
  obtain ⟨enough, htotal⟩ := ChunkBuffer.Owns.dispose_total howns (ChunkBuffer.Owns.end_eq howns)
  refine ⟨enough, fun fuel hfuel => ?_⟩
  obtain ⟨cb, freed, hdispose⟩ := htotal fuel hfuel
  obtain ⟨ctx, hdestroy, hclosed⟩ := HttpListenerContext.destroy_of_dispose hdispose
  exact ⟨ctx, freed, hdestroy, (ChunkBuffer.Owns.dispose howns (ChunkBuffer.Owns.end_eq howns) hdispose).1, hclosed⟩

/-- A request, a write and the end of the context without an answer. -/
theorem destroy_frees_chunks_unsent :
    ∃ last, steps (call (.bump fun _ => nullptr) Wire.stream 20)
        { ctx := .fresh (Vector.replicate 256 0), heap := .empty }
        [.get_context HttpListener.serving (ERR_OK, { segments := [ascii "A \r\n\r\n"] }) 0,
          .write (ascii "Y") (by decide)] = ok last ∧
      ∃ enough, ∀ fuel, enough ≤ fuel → ∃ ctx freed,
        last.ctx.destroy last.heap fuel = ok (last.ctx.m_client.m_socket.closes, ctx, freed) ∧
        freed.live = Heap.empty.live ∧ ctx.m_client.m_socket.m_context = none := by
  have hrun : (steps (call (.bump fun _ => nullptr) Wire.stream 20)
      { ctx := .fresh (Vector.replicate 256 0), heap := .empty }
      [.get_context HttpListener.serving (ERR_OK, { segments := [ascii "A \r\n\r\n"] }) 0,
        .write (ascii "Y") (by decide)] >>= fun session => ok session.ctx.m_is_created) = ok true := by
    decide +kernel
  obtain ⟨last, hlast, -⟩ := bind_eq_ok_iff.mp hrun
  exact ⟨last, hlast, destroy_frees_chunks (Allocator.bump_givesWord fun _ => rfl) hlast⟩

end Session

end kfw.web
