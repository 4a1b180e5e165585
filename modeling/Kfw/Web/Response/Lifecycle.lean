import Kfw.Web.ChunkBuffer.FailedWrite
import Kfw.Web.Framing
import Kfw.Web.Session

open exec Result kfw.io kfw.net kfw.text

namespace kfw.web

variable {σ : Type} {allocator : Allocator} {conn : Stream σ} {fuel : Nat}

namespace HttpListener

/-- What a request does to the stream of the response: nothing, or it is created over the
blocks there were. -/
theorem read_request_stream {ctx next : HttpListenerContext σ} {heap nextHeap : Heap} {line : StringBuffer}
    {buf : UInt8} {r : ret_t}
    (h : read_request allocator conn ctx heap line buf fuel = ok (r, next, nextHeap)) :
    next.m_response.m_stream = ctx.m_response.m_stream ∧ nextHeap.live = heap.live ∨
      ∃ before, before.live = heap.live ∧
        ctx.m_response.m_stream.create allocator before = ok (kOk, next.m_response.m_stream, nextHeap) := by
  obtain ⟨⟨r1, bs, socket, line1⟩, _, h⟩ := bind_eq_ok_iff.mp h
  simp only at h
  split at h
  · cases h
    exact .inl ⟨rfl, rfl⟩
  obtain ⟨⟨r2, parsed⟩, _, h⟩ := bind_eq_ok_iff.mp h
  simp only at h
  split at h
  · cases h
    exact .inl ⟨rfl, rfl⟩
  obtain ⟨⟨m_method, heap1⟩, hmethod, h⟩ := bind_eq_ok_iff.mp h
  obtain ⟨⟨r3, m_uri, heap2⟩, huri, h⟩ := bind_eq_ok_iff.mp h
  obtain ⟨⟨r4, headers⟩, _, h⟩ := bind_eq_ok_iff.mp h
  obtain ⟨⟨m_raw_url, heap'⟩, hurl, hresult⟩ := bind_eq_ok_iff.mp huri
  cases hresult
  have hlive : heap2.live = heap.live := (string_of_ref_live hurl).trans (string_of_ref_live hmethod)
  simp only at h
  split at h
  · cases h
    exact .inl ⟨rfl, hlive⟩
  obtain ⟨⟨m_content_type, heap3⟩, htype, h⟩ := bind_eq_ok_iff.mp h
  obtain ⟨⟨r5, m_stream, heap4⟩, hcreate, h⟩ := bind_eq_ok_iff.mp h
  cases h
  obtain ⟨⟨_, _, _⟩, _, hcreated⟩ := bind_eq_ok_iff.mp hcreate
  cases hcreated
  exact .inr ⟨heap3, (string_of_c_str_live htype).trans hlive, hcreate⟩

theorem get_context_stream {listener : HttpListener} {ctx next : HttpListenerContext σ} {heap nextHeap : Heap}
    {accepted : Int × σ} {buf : UInt8} {r : ret_t}
    (h : listener.get_context allocator conn ctx heap accepted buf fuel = ok (r, next, nextHeap)) :
    next.m_response.m_stream = ctx.m_response.m_stream ∧ nextHeap.live = heap.live ∨
      ∃ before, before.live = heap.live ∧
        ctx.m_response.m_stream.create allocator before = ok (kOk, next.m_response.m_stream, nextHeap) := by
  have hline : (StringBuffer.create allocator heap 1024).2.live = heap.live :=
    Heap.new_chars_live allocator heap 1024
  have haccept := Socket.accept_live allocator listener.m_server.m_socket
    (StringBuffer.create allocator heap 1024).2 ctx.m_client.m_socket accepted
  rw [hline] at haccept
  unfold get_context at h
  split at h
  · cases h
    exact .inl ⟨rfl, rfl⟩
  split at h
  · cases h
    exact .inl ⟨rfl, rfl⟩
  obtain ⟨rr, socket, heap1, hanswer⟩ : ∃ rr socket heap1, Socket.accept allocator listener.m_server.m_socket
      (StringBuffer.create allocator heap 1024).2 ctx.m_client.m_socket accepted = (rr, socket, heap1) :=
    ⟨_, _, _, rfl⟩
  rw [hanswer] at haccept
  simp only [TcpServer.accept_tcp_client, hanswer] at h
  split at h
  · cases h
    exact .inl ⟨rfl, haccept⟩
  · rcases read_request_stream h with ⟨hstream, hlive⟩ | ⟨before, hbefore, hcreate⟩
    · exact .inl ⟨hstream, hlive.trans haccept⟩
    · exact .inr ⟨before, hbefore.trans haccept, hcreate⟩

end HttpListener

namespace HttpListenerContext

/-- What a close does to the chunks of the response: nothing, or they are disposed of. -/
theorem close_response_stream {ctx next : HttpListenerContext σ} {heap nextHeap : Heap}
    (h : ctx.close_response conn heap fuel = ok (next, nextHeap)) :
    next.m_response.m_stream = ctx.m_response.m_stream ∧ nextHeap = heap ∨
      ctx.m_response.m_stream.m_chunk_buffer.dispose heap fuel =
        ok (next.m_response.m_stream.m_chunk_buffer, nextHeap) := by
  unfold close_response at h
  split at h
  · cases h
    exact .inl ⟨rfl, rfl⟩
  obtain ⟨⟨r, closed, closedHeap⟩, hwrite, h⟩ := bind_eq_ok_iff.mp h
  cases h
  obtain ⟨writer1, _, hwrite⟩ := bind_eq_ok_iff.mp hwrite
  split at hwrite
  · cases hwrite
    exact .inl ⟨rfl, rfl⟩
  obtain ⟨writer2, _, hwrite⟩ := bind_eq_ok_iff.mp hwrite
  obtain ⟨writer3, _, hwrite⟩ := bind_eq_ok_iff.mp hwrite
  split at hwrite
  · cases hwrite
    exact .inl ⟨rfl, rfl⟩
  obtain ⟨writer4, _, hwrite⟩ := bind_eq_ok_iff.mp hwrite
  obtain ⟨⟨sent_all, s, base_state⟩, _, hwrite⟩ := bind_eq_ok_iff.mp hwrite
  simp only at hwrite
  split at hwrite
  · cases hwrite
    exact .inl ⟨rfl, rfl⟩
  obtain ⟨⟨s, base_state⟩, _, hwrite⟩ := bind_eq_ok_iff.mp hwrite
  obtain ⟨⟨m_chunk_buffer, heap1⟩, hdispose, hwrite⟩ := bind_eq_ok_iff.mp hwrite
  cases hwrite
  exact .inr hdispose

end HttpListenerContext

namespace ChunkBuffer

variable {cb next : ChunkBuffer} {heap nextHeap : Heap} {data : List UInt8}

theorem Contains.of_live (h : cb.Contains heap data) {other : Heap} (hlive : other.live = heap.live) :
    cb.Contains other data :=
  h.imp_right fun ⟨full, hholds⟩ => ⟨full, hholds.of_live hlive⟩

theorem Contains.dispose (h : cb.Contains heap data) (hdispose : cb.dispose heap fuel = ok (next, nextHeap)) :
    next.Contains nextHeap [] := by
  refine .inl ⟨vacant_of_dispose (fun hfirst => ?_) hdispose, rfl⟩
  rcases h with ⟨hvacant, _⟩ | ⟨full, hholds⟩
  · exact hvacant
  · exact absurd hfirst hholds.first_ne_nullptr

/-- A first chunk that is refused leaves the buffer without one. -/
theorem Contains.init (h : cb.Contains heap data) {chunk_size : UInt32} (hpos : 0 < chunk_size.toNat)
    (hfits : chunk_size.toNat + 4 < 2 ^ 32) {r : ret_t}
    (hinit : cb.init allocator heap chunk_size = ok (r, next, nextHeap)) : ∃ data, next.Contains nextHeap data := by
  rcases h with ⟨hvacant, rfl⟩ | ⟨full, hholds⟩
  · cases halloc : allocator.alloc heap (chunk_size + offsetof_m_buffer) with
    | none =>
      simp only [ChunkBuffer.init, hvacant.first_eq, ne_eq, not_true_eq_false, if_false,
        Heap.operator_new_of_none halloc, if_true] at hinit
      cases hinit
      exact ⟨[], .inl ⟨⟨rfl, hvacant.current_eq⟩, rfl⟩⟩
    | some answer =>
      obtain ⟨addr, block⟩ := answer
      obtain ⟨granted, grantedHeap, hgranted, hholds, _⟩ := init_holds hvacant.first_eq hpos hfits halloc
      cases hgranted.symm.trans hinit
      exact ⟨[], .inr ⟨[], hholds⟩⟩
  · rw [ChunkBuffer.init, if_pos hholds.first_ne_nullptr] at hinit
    cases hinit
    exact ⟨data, .inr ⟨full, hholds⟩⟩

theorem Contains.write (h : cb.Contains heap data) {bytes : List UInt8} (hbytes : bytes.length < 2 ^ 32) {r : ret_t}
    (hwrite : cb.write allocator heap bytes fuel = ok (r, next, nextHeap)) : ∃ data, next.Contains nextHeap data := by
  rcases h with ⟨hvacant, rfl⟩ | ⟨full, hholds⟩
  · obtain ⟨rfl, _⟩ := write_without_chunk_ok hvacant.current_eq hwrite
    exact ⟨[], .inl ⟨hvacant, rfl⟩⟩
  · obtain ⟨nextFull, written, rest, _, hnext⟩ := hholds.write_holds hbytes hwrite
    exact ⟨_, .inr ⟨nextFull, hnext⟩⟩

end ChunkBuffer

namespace Session

variable {session next : Session σ}

/-- The buffer of the response has stored something, or has no chunk. -/
def Sound (session : Session σ) : Prop := ∃ data, session.body.Contains session.heap data

theorem Sound.call (h : session.Sound) {action : ContextCall σ}
    (hcall : session.call allocator conn fuel action = ok next) : next.Sound := by
  obtain ⟨data, hbody⟩ := h
  cases action with
  | get_context listener accepted buf =>
    obtain ⟨⟨r, ctx, heap⟩, hget, hresult⟩ := bind_eq_ok_iff.mp hcall
    cases hresult
    rcases HttpListener.get_context_stream hget with ⟨hstream, hlive⟩ | ⟨before, hbefore, hcreate⟩
    · refine ⟨data, ?_⟩
      rw [body, hstream]
      exact hbody.of_live hlive
    · obtain ⟨⟨rr, m_chunk_buffer, created⟩, hinit, hresult⟩ := bind_eq_ok_iff.mp hcreate
      rw [ok.injEq, Prod.mk.injEq, Prod.mk.injEq] at hresult
      obtain ⟨_, hstream, rfl⟩ := hresult
      obtain ⟨kept, hkept⟩ := (hbody.of_live hbefore).init (by decide) (by decide) hinit
      refine ⟨kept, ?_⟩
      rw [body, ← hstream]
      exact hkept
  | set_status_code value =>
    cases hcall
    exact ⟨data, hbody⟩
  | set_content_type value =>
    obtain ⟨⟨chars, heap⟩, hstring, hresult⟩ := bind_eq_ok_iff.mp hcall
    cases hresult
    exact ⟨data, hbody.of_live (string_of_ref_live hstring)⟩
  | write bytes hbytes =>
    obtain ⟨⟨r, m_stream, heap⟩, hwrite, hresult⟩ := bind_eq_ok_iff.mp hcall
    cases hresult
    obtain ⟨⟨rr, cb, cbHeap⟩, hcb, hresult⟩ := bind_eq_ok_iff.mp hwrite
    obtain ⟨kept, hkept⟩ := hbody.write hbytes hcb
    refine ⟨kept, ?_⟩
    simp only at hresult
    split at hresult <;> cases hresult <;> exact hkept
  | close =>
    obtain ⟨⟨ctx, heap⟩, hclose, hresult⟩ := bind_eq_ok_iff.mp hcall
    cases hresult
    rcases HttpListenerContext.close_response_stream hclose with ⟨hstream, rfl⟩ | hdispose
    · refine ⟨data, ?_⟩
      rw [body, hstream]
      exact hbody
    · exact ⟨[], hbody.dispose hdispose⟩
  | dispose =>
    cases hcall
    refine ⟨data, ?_⟩
    unfold body HttpListenerContext.dispose
    split
    · exact hbody
    · exact hbody

/-- A write of some bytes follows no null pointer, and fails without a chunk. -/
def SafeWrite (allocator : Allocator) (session : Session σ) : ContextCall σ → Prop
  | .write data _ => data ≠ [] →
    (∀ fuel, session.ctx.m_response.m_stream.write allocator session.heap data fuel ≠ fail .invalid_access) ∧
      (session.body.m_current_chunk = nullptr → ∃ fuel answer m_stream heap,
        session.ctx.m_response.m_stream.write allocator session.heap data fuel = ok (answer, m_stream, heap) ∧
          is_failed answer.ret = true)
  | _ => True

/-- A write of some bytes finds a chunk, or needs one at once and is refused it. -/
def FindsChunk (allocator : Allocator) (session : Session σ) : ContextCall σ → Prop
  | .write data _ => data ≠ [] →
    session.body.m_current_chunk ≠ nullptr ∨ session.body.RefusedAtOnce allocator session.heap
  | _ => True

open HttpListenerResponseStream

/-- A write without a chunk that is not refused one at once. -/
theorem not_safeWrite (hcurrent : session.body.m_current_chunk = nullptr)
    (hgoes : ¬ session.body.RefusedAtOnce allocator session.heap) {data : List UInt8} (hne : data ≠ [])
    (hdata : data.length < 2 ^ 32) : ¬ session.SafeWrite allocator (.write data hdata) := by
  intro hsafe
  exact (hsafe hne).1 1 (write_eq_fail_iff.mpr (ChunkBuffer.write_without_chunk hcurrent hne hgoes 0))

theorem Sound.safeWrite_iff (h : session.Sound) (allocator : Allocator) (action : ContextCall σ) :
    session.SafeWrite allocator action ↔ session.FindsChunk allocator action := by
  obtain ⟨data, hbody⟩ := h
  cases action with
  | write bytes hbytes =>
    rcases hbody with ⟨hvacant, _⟩ | ⟨full, hholds⟩
    · constructor
      · intro hsafe hne
        exact .inr (by_contra fun hgoes => not_safeWrite hvacant.current_eq hgoes hne hbytes hsafe)
      · intro hfind hne
        have hfinds := hfind hne
        have hrefused := hfinds.resolve_left (not_not_intro hvacant.current_eq)
        refine ⟨?_, fun _ => ⟨1, _, _, _, write_refused hrefused hne 0, rfl⟩⟩
        intro fuel hfault
        cases fuel with
        | zero => cases write_eq_fail_iff.mp hfault
        | succ fuel => cases (write_refused hrefused hne fuel).symm.trans hfault
    · have hcurrent := hholds.current_chunk.ne_nullptr
      refine iff_of_true (fun _ => ⟨?_, fun hnull => absurd hnull hcurrent⟩) (fun _ => .inl hcurrent)
      intro fuel hfault
      exact hholds.write_ne_fail hbytes _ (write_eq_fail_iff.mp hfault)
  | _ => exact Iff.rfl

/-- Over every run of calls on a context, the writes to the response are safe if and only if
each of them finds a chunk, or needs one at once and is refused it. -/
theorem writes_safe_iff (allocator : Allocator) (conn : Stream σ) (fuel : Nat) (m_buffer : Vector UInt8 256)
    (heap : Heap) (calls : List (ContextCall σ)) :
    Along (call allocator conn fuel) (SafeWrite allocator) { ctx := .fresh m_buffer, heap } calls ↔
      Along (call allocator conn fuel) (FindsChunk allocator) { ctx := .fresh m_buffer, heap } calls := by
  have hstart : Sound { ctx := (.fresh m_buffer : HttpListenerContext σ), heap } := ⟨[], .inl ⟨⟨rfl, rfl⟩, rfl⟩⟩
  exact Along.iff_of_step Sound (fun _ action hsound _ => hsound.safeWrite_iff allocator action)
    (fun _ _ _ hsound _ _ hcall => hsound.call hcall) hstart (.of_forall fun _ _ _ => trivial)

/-- After a run that leaves the buffer without a chunk, and the position inside of one, the next
write is not safe. -/
theorem not_safe_after {start : Session σ} {calls : List (ContextCall σ)} {body : ChunkBuffer}
    (hrun : (steps (call allocator conn fuel) start calls >>= fun session => ok session.body) = ok body)
    (hcurrent : body.m_current_chunk = nullptr) (hpos : body.m_current_chunk_pos ≠ body.m_chunk_size)
    {data : List UInt8} (hne : data ≠ []) (hdata : data.length < 2 ^ 32) :
    ¬ Along (call allocator conn fuel) (SafeWrite allocator) start (calls ++ [.write data hdata]) := by
  obtain ⟨session, hsession, hbody⟩ := bind_eq_ok_iff.mp hrun
  cases hbody
  intro hsafe
  exact not_safeWrite hcurrent (fun hrefused => hpos hrefused.1) hne hdata (hsafe.last_action hsession)

/-- A write to a response whose first chunk was refused, and one to a response that was closed. -/
theorem write_to_no_chunk :
    ¬ Along (call (.limited 5) Wire.stream 12) (SafeWrite (.limited 5))
        { ctx := .fresh (Vector.replicate 256 0), heap := .empty }
        ([.get_context HttpListener.serving (ERR_OK, { segments := [ascii "A \r\n\r\n"] }) 0] ++
          [.write (ascii "Y") (by decide)]) ∧
      ¬ Along (call (.bump id) Wire.stream 20) (SafeWrite (.bump id))
        { ctx := .fresh (Vector.replicate 256 0), heap := .empty }
        ([.get_context HttpListener.serving (ERR_OK, { segments := [ascii "A \r\n\r\n"] }) 0, .close] ++
          [.write (ascii "Y") (by decide)]) := by
  constructor
  · have hrun : (steps (call (.limited 5) Wire.stream 12) { ctx := .fresh (Vector.replicate 256 0), heap := .empty }
        [.get_context HttpListener.serving (ERR_OK, { segments := [ascii "A \r\n\r\n"] }) 0] >>= fun session =>
        ok session.body) = ok { m_chunk_size := 512 } := by
      decide +kernel
    exact not_safe_after hrun rfl (by decide) (by decide) _
  · have hrun : (steps (call (.bump id) Wire.stream 20) { ctx := .fresh (Vector.replicate 256 0), heap := .empty }
        [.get_context HttpListener.serving (ERR_OK, { segments := [ascii "A \r\n\r\n"] }) 0, .close] >>=
        fun session => ok session.body) = ok { m_chunk_size := 512 } := by
      decide +kernel
    exact not_safe_after hrun rfl (by decide) (by decide) _

end Session

end kfw.web
