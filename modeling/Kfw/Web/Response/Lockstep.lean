import Kfw.Web.ChunkBuffer.Dispose
import Kfw.Web.ChunkBuffer.Replay
import Kfw.Web.Context

open exec Result kfw.io kfw.net

namespace kfw.web

variable {σ : Type} {base : Stream σ} {s s' : BufferedStream}

section Writer

open StreamWriter

variable {left right : StreamWriter σ}

theorem write_status_line_rel (hs : s.Unbuffered) (hs' : s'.Unbuffered) (h : Alike s s' left right)
    (status_code : Int32) :
    (write_status_line base left status_code).Rel (Alike s s') (write_status_line base right status_code) := by
  apply (put_rel hs hs' h _).bind
  intro w1 w1' h1
  apply (put_int32_rel hs hs' h1 _).bind
  intro w2 w2' h2
  apply (put_rel hs hs' h2 _).bind
  intro w3 w3' h3
  apply (put_rel hs hs' h3 _).bind
  intro w4 w4' h4
  exact put_rel hs hs' h4 _

theorem write_headers_rel (hs : s.Unbuffered) (hs' : s'.Unbuffered) (h : Alike s s' left right)
    (total_size : UInt32) (content_type : List UInt8) :
    (write_headers base left total_size content_type).Rel (Alike s s')
      (write_headers base right total_size content_type) := by
  apply (put_rel hs hs' h _).bind
  intro w1 w1' h1
  apply (put_uint32_rel hs hs' h1 _).bind
  intro w2 w2' h2
  apply (put_rel hs hs' h2 _).bind
  intro w3 w3' h3
  apply (put_rel hs hs' h3 _).bind
  intro w4 w4' h4
  apply (put_rel hs hs' h4 _).bind
  intro w5 w5' h5
  apply (put_rel hs hs' h5 _).bind
  intro w6 w6' h6
  apply (put_rel hs hs' h6 _).bind
  intro w7 w7' h7
  apply (put_rel hs hs' h7 _).bind
  intro w8 w8' h8
  exact put_rel hs hs' h8 _

end Writer

/-- Streams that stay `s` and `s'` over one state of the connection. -/
def OverSame (s s' : BufferedStream) (left right : BufferedStream × σ) : Prop :=
  left.1 = s ∧ right.1 = s' ∧ left.2 = right.2

/-- Ends of the loop over the chunks that differ only in the streams. -/
def SentAlike (s s' : BufferedStream) (left right : Bool × BufferedStream × σ) : Prop :=
  left.1 = right.1 ∧ OverSame s s' left.2 right.2

theorem send_chunk_rel (hs : s.Unbuffered) (hs' : s'.Unbuffered) {left right : BufferedStream × σ}
    (h : OverSame s s' left right) (data : List UInt8) :
    (send_chunk base left data).Rel (Flow.Rel (OverSame s s') (SentAlike s s')) (send_chunk base right data) := by
  obtain ⟨_, base_state⟩ := left
  obtain ⟨_, _⟩ := right
  obtain ⟨rfl, rfl, rfl⟩ := h
  simp only [send_chunk, hs.write_eq, hs'.write_eq]
  split
  · exact .ok (.cont ⟨rfl, rfl, rfl⟩)
  · cases base.write base_state data with
    | fail error => exact .fail error
    | div => exact .div
    | ok answer =>
      obtain ⟨r, next⟩ := answer
      simp only [bind_ok]
      split
      · exact .ok (.done ⟨rfl, rfl, rfl, rfl⟩)
      · exact .ok (.cont ⟨rfl, rfl, rfl⟩)

/-- Visiting the same pieces in lockstep. -/
theorem visit_all_rel {τ τ' ρ ρ' : Type} {R : τ → τ' → Prop} {S : ρ → ρ' → Prop}
    {visit : τ → List UInt8 → Exec (Flow τ ρ)} {visit' : τ' → List UInt8 → Exec (Flow τ' ρ')}
    (hvisit : ∀ acc acc' piece, R acc acc' → (visit acc piece).Rel (Flow.Rel R S) (visit' acc' piece))
    {after : Nat → τ → Exec ρ} {after' : Nat → τ' → Exec ρ'}
    (hafter : ∀ fuel acc acc', R acc acc' → (after fuel acc).Rel S (after' fuel acc'))
    (pieces : List (List UInt8)) (fuel : Nat) {acc : τ} {acc' : τ'} (h : R acc acc') :
    (visit_all visit after fuel acc pieces).Rel S (visit_all visit' after' fuel acc' pieces) := by
  induction pieces generalizing fuel acc acc' with
  | nil =>
    simp only [visit_all]
    exact hafter fuel acc acc' h
  | cons piece pieces ih =>
    cases fuel with
    | zero =>
      simp only [visit_all]
      exact .div
    | succ fuel =>
      simp only [visit_all]
      exact (hvisit acc acc' piece h).proceed fun _ _ hnext => ih fuel hnext

/-- Two buffers with the same data in the same pieces, whose chains end, are
sent in lockstep. -/
theorem send_chunks_rel (hs : s.Unbuffered) (hs' : s'.Unbuffered) {cb cb' : ChunkBuffer}
    {heap heap' : Heap} {full full' : List Addr} {data data' : List UInt8}
    (hholds : cb.Holds heap full data) (hholds' : cb'.Holds heap' full' data')
    (hend : heap.word cb.m_current_chunk = nullptr) (hend' : heap'.word cb'.m_current_chunk = nullptr)
    (hpieces : cb.pieces heap full = cb'.pieces heap' full') (fuel : Nat) (base_state : σ) :
    (ChunkBufferEnumerator.walk heap (send_chunk base) (fun state => (true, state)) fuel (.mk_of cb)
      (s, base_state)).Rel (SentAlike s s')
      (ChunkBufferEnumerator.walk heap' (send_chunk base) (fun state => (true, state)) fuel (.mk_of cb')
        (s', base_state)) := by
  rw [hholds.walk_chain, hholds'.walk_chain, hpieces, hend, hend']
  have hstart : OverSame s s' (s, base_state) (s', base_state) := ⟨rfl, rfl, rfl⟩
  refine visit_all_rel (R := OverSame s s') (fun _ _ piece h => send_chunk_rel hs hs' h piece)
    (fun fuel acc acc' h => ?_) _ fuel hstart
  cases fuel with
  | zero => exact .div
  | succ fuel =>
    simp only [ChunkBuffer.walk_end]
    exact .ok ⟨rfl, h⟩

/-- One buffer, sent once, whatever its chain is. -/
theorem send_chunks_self (hs : s.Unbuffered) (cb : ChunkBuffer) (heap : Heap) (fuel : Nat)
    (base_state : σ) :
    (ChunkBufferEnumerator.walk heap (send_chunk base) (fun state => (true, state)) fuel (.mk_of cb)
      (s, base_state)).Rel (SentAlike s s)
      (ChunkBufferEnumerator.walk heap (send_chunk base) (fun state => (true, state)) fuel (.mk_of cb)
        (s, base_state)) := by
  apply loop_rel (R := fun x y => x.1 = y.1 ∧ OverSame s s x.2 y.2)
  · rintro ⟨e, acc⟩ ⟨_, acc'⟩ ⟨rfl, h⟩
    simp only [ChunkBufferEnumerator.walk_pass]
    split
    · exact .ok (.done ⟨rfl, h⟩)
    · apply (Result.Rel.same _ fun _ _ => rfl).bind
      rintro data _ rfl
      apply (send_chunk_rel hs hs h data).bind
      rintro _ _ (⟨hnext⟩ | ⟨hresult⟩)
      · apply (Result.Rel.same _ fun _ _ => rfl).bind
        rintro next _ rfl
        exact .ok (.cont ⟨rfl, hnext⟩)
      · exact .ok (.done hresult)
  · exact ⟨rfl, rfl, rfl, rfl⟩

namespace HttpListenerContext

variable {conn : Stream σ} {left right : HttpListenerContext σ} {leftHeap rightHeap : Heap}

/-- What `write_response` leaves of two contexts: the connections are in one
state, and either the body is kept by both, or both were disposed, with buffers
and heaps as `S` says. -/
inductive ResponseAlike (left right : HttpListenerContext σ) (leftHeap rightHeap : Heap)
    (S : ChunkBuffer × Heap → ChunkBuffer × Heap → Prop) :
    ret_t × HttpListenerContext σ × Heap → ret_t × HttpListenerContext σ × Heap → Prop where
  | kept (r : ret_t) (socket : Socket σ) :
    ResponseAlike left right leftHeap rightHeap S (r, left.with_stream left.m_stream socket, leftHeap)
      (r, right.with_stream right.m_stream socket, rightHeap)
  | disposed (socket : Socket σ) {cb cb' : ChunkBuffer} {heap heap' : Heap} (h : S (cb, heap) (cb', heap')) :
    ResponseAlike left right leftHeap rightHeap S
      (kOk, { left.with_stream left.m_stream socket with m_response.m_stream.m_chunk_buffer := cb }, heap)
      (kOk, { right.with_stream right.m_stream socket with m_response.m_stream.m_chunk_buffer := cb' }, heap')

theorem write_response_rel (hs : left.m_stream.Unbuffered) (hs' : right.m_stream.Unbuffered)
    (hclient : left.m_client = right.m_client)
    (hcode : left.m_response.m_status_code = right.m_response.m_status_code)
    (htype : left.m_response.m_content_type = right.m_response.m_content_type)
    (htotal : left.m_response.m_stream.m_chunk_buffer.get_total_size =
      right.m_response.m_stream.m_chunk_buffer.get_total_size) {fuel : Nat}
    (hwalk : ∀ socket : Socket σ,
      (ChunkBufferEnumerator.walk leftHeap (send_chunk (SocketStream conn)) (fun state => (true, state)) fuel
        (.mk_of left.m_response.m_stream.m_chunk_buffer) (left.m_stream, socket)).Rel
        (SentAlike left.m_stream right.m_stream)
        (ChunkBufferEnumerator.walk rightHeap (send_chunk (SocketStream conn)) (fun state => (true, state)) fuel
          (.mk_of right.m_response.m_stream.m_chunk_buffer) (right.m_stream, socket)))
    {S : ChunkBuffer × Heap → ChunkBuffer × Heap → Prop}
    (hdispose : (left.m_response.m_stream.m_chunk_buffer.dispose leftHeap fuel).Rel S
      (right.m_response.m_stream.m_chunk_buffer.dispose rightHeap fuel)) :
    (left.write_response conn leftHeap fuel).Rel (ResponseAlike left right leftHeap rightHeap S)
      (right.write_response conn rightHeap fuel) := by
  unfold write_response
  simp only [hclient, hcode, htype, htotal]
  have hstart : StreamWriter.Alike left.m_stream right.m_stream
      { m_s := left.m_stream, base_state := right.m_client.m_socket }
      { m_s := right.m_stream, base_state := right.m_client.m_socket } := ⟨rfl, rfl, rfl, rfl⟩
  apply (write_status_line_rel hs hs' hstart _).bind
  intro w1 w1' h1
  obtain ⟨hw, hw', hstate, herror⟩ := id h1
  simp only [hw, hw', hstate, herror]
  split
  · exact .ok (.kept _ _)
  apply (StreamWriter.flush_rel hs hs' h1).bind
  intro w2 w2' h2
  apply (write_headers_rel hs hs' h2 _ _).bind
  intro w3 w3' h3
  obtain ⟨hw, hw', hstate, herror⟩ := id h3
  simp only [hw, hw', hstate, herror]
  split
  · exact .ok (.kept _ _)
  apply (StreamWriter.flush_rel hs hs' h3).bind
  intro w4 w4' h4
  obtain ⟨hw, hw', hstate, herror⟩ := id h4
  simp only [hw, hw', hstate, herror]
  apply (hwalk w4'.base_state).bind
  rintro ⟨sent_all, _, socket⟩ ⟨_, _, _⟩ ⟨rfl, rfl, rfl, rfl⟩
  simp only
  split
  · exact .ok (.kept _ _)
  rw [hs.flush_eq, hs'.flush_eq]
  cases (SocketStream conn).flush socket with
  | fail error => exact .fail error
  | div => exact .div
  | ok last =>
    simp only [bind_ok]
    apply hdispose.bind
    rintro ⟨cb, heap⟩ ⟨cb', heap'⟩ hS
    exact .ok (.disposed last hS)

/-- Two open responses with the same data, in chains that end, are closed alike. -/
theorem close_response_rel {P : Addr → Addr → Prop} {full full' : List Addr} {data : List UInt8}
    (hs : left.m_stream.Unbuffered) (hs' : right.m_stream.Unbuffered)
    (hclient : left.m_client = right.m_client) (hopened : left.m_response.m_is_opened = true)
    (hopened' : right.m_response.m_is_opened = true)
    (hcode : left.m_response.m_status_code = right.m_response.m_status_code)
    (htype : left.m_response.m_content_type = right.m_response.m_content_type)
    (hstored : left.m_response.m_stream.m_chunk_buffer.Stored P 512 leftHeap full data)
    (hstored' : right.m_response.m_stream.m_chunk_buffer.Stored P 512 rightHeap full' data)
    (hend : leftHeap.word left.m_response.m_stream.m_chunk_buffer.m_current_chunk = nullptr)
    (hend' : rightHeap.word right.m_response.m_stream.m_chunk_buffer.m_current_chunk = nullptr)
    (fuel : Nat) :
    (left.close_response conn leftHeap fuel).Rel (fun x y => x.1.m_client = y.1.m_client)
      (right.close_response conn rightHeap fuel) := by
  obtain ⟨hcount, hpieces⟩ := hstored.pieces_eq hstored'
  have htotal : left.m_response.m_stream.m_chunk_buffer.get_total_size =
      right.m_response.m_stream.m_chunk_buffer.get_total_size :=
    hstored.holds.total.trans hstored'.holds.total.symm
  -- the chains have one length, so both are freed or neither
  have hdispose : (left.m_response.m_stream.m_chunk_buffer.dispose leftHeap fuel).Rel (fun _ _ => True)
      (right.m_response.m_stream.m_chunk_buffer.dispose rightHeap fuel) := by
    obtain ⟨freed, hfreed⟩ := hstored.holds.dispose_eq hend fuel
    obtain ⟨freed', hfreed'⟩ := hstored'.holds.dispose_eq hend' fuel
    rw [hfreed, hfreed', hcount]
    split
    · exact .div
    · exact .ok trivial
  simp only [close_response, hopened, hopened', not_true, if_false]
  apply (write_response_rel hs hs' hclient hcode htype htotal
    (fun socket => send_chunks_rel hs hs' hstored.holds hstored'.holds hend hend' hpieces fuel socket) hdispose).bind
  rintro _ _ (⟨r, socket⟩ | ⟨socket, _⟩)
  · exact .ok rfl
  · exact .ok rfl

end HttpListenerContext

end kfw.web
