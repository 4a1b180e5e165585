import Kfw.Net.Receive.Lossless

open exec Result kfw.io

namespace kfw.net

/-- An open connection as a stream: it reads by `recv_from`. How it sends is
given. -/
def SocketContext.stream (fuel : Nat)
    (write : SocketContext → List UInt8 → Exec (RetVal UInt32 × SocketContext)) : Stream SocketContext where
  read context size := do
    let (result, data, _, socket) ← Socket.recv_from { m_context := some context } size {} fuel
    ok (result, data, socket.m_context.getD context)
  write
  flush := ok

variable {fuel : Nat} {write : SocketContext → List UInt8 → Exec (RetVal UInt32 × SocketContext)}
  {context : SocketContext} {size : UInt32}

/-- The stream of a socket reads by `recv_from` too. -/
theorem SocketStream.read_eq (socket : Socket SocketContext) :
    (SocketStream (SocketContext.stream fuel write)).read socket size = (do
      let (result, data, _, socket) ← socket.recv_from size {} fuel
      ok (result, data, socket)) := by
  cases hcontext : socket.m_context with
  | none => simp [SocketStream, Socket.recv_from, hcontext]
  | some context =>
    by_cases hsize : size = 0
    · simp [SocketStream, Socket.recv_from, hcontext, hsize]
    · simp only [SocketStream, SocketContext.stream, Socket.recv_from, hcontext, hsize, if_false]
      cases loop (recv_pass size) fuel { context, remain_read_size := size, remote := {} } with
      | ok answer => simp
      | fail error => simp
      | div => simp

/-- What `recv_from` will say that it read is what it has put in the buffer. -/
def Receiving.Counted (size : UInt32) (receiving : Receiving) : Prop :=
  (size - receiving.remain_read_size).toNat = receiving.out.length ∧ receiving.out.length ≤ size.toNat

theorem Receiving.Counted.copied {receiving : Receiving} (h : receiving.Counted size) {copy_size : UInt32}
    {copied : List UInt8} (hcopied : copied.length = copy_size.toNat)
    (hroom : receiving.out.length + copy_size.toNat ≤ size.toNat) (context : SocketContext)
    (remote : SocketAddress) :
    ({ context, remain_read_size := receiving.remain_read_size - copy_size, out := receiving.out ++ copied,
       remote } : Receiving).Counted size := by
  have hsum : size - (receiving.remain_read_size - copy_size) = size - receiving.remain_read_size + copy_size := by
    grind
  have hsize := size.toNat_lt
  refine ⟨?_, ?_⟩
  · rw [hsum, UInt32.toNat_add, h.1, List.length_append, hcopied]
    exact Nat.mod_eq_of_lt (by omega)
  · rw [List.length_append, hcopied]
    exact hroom

/-- A pass takes a netbuf, ends with nothing more read, or copies. -/
theorem recv_pass_counted {receiving : Receiving} {flow : Flow Receiving (Int × Receiving)}
    (h : receiving.Counted size) (hpass : recv_pass size receiving = ok flow) :
    flow.Meets (Receiving.Counted size) fun result => result.2.Counted size := by
  obtain ⟨context, remain_read_size, out, remote⟩ := receiving
  simp only [recv_pass] at hpass
  by_cases hremain : remain_read_size = 0
  · rw [if_pos hremain] at hpass
    cases hpass
    exact h
  rw [if_neg hremain] at hpass
  cases hbuf : context.m_recv_buf with
  | none =>
    cases hhandle : context.m_handle with
    | nil => simp [hbuf, hhandle] at hpass
    | cons answer m_handle =>
      cases answer <;> simp only [hbuf, hhandle, ok.injEq] at hpass <;> subst hpass <;> exact h
  | some buf =>
    simp only [hbuf] at hpass
    by_cases hdata : (netbuf_data buf).1 = ERR_OK
    · rw [if_neg (not_not_intro hdata)] at hpass
      obtain ⟨copy_size, hcopy⟩ : ∃ copy_size, copy_size =
        if size > (netbuf_data buf).2.length.toUInt32 - context.m_recv_buf_offset then
          (netbuf_data buf).2.length.toUInt32 - context.m_recv_buf_offset else size := ⟨_, rfl⟩
      rw [← hcopy] at hpass
      split at hpass
      · cases hpass
      · rename_i hroom
        cases hpass
        rw [not_or, Nat.not_lt, Nat.not_lt] at hroom
        exact h.copied (Nat.le_antisymm (List.length_take_le _ _) hroom.1) hroom.2 _ _
    · rw [if_pos hdata] at hpass
      cases hpass
      exact h

theorem SocketContext.stream_returnsAtMost : (SocketContext.stream fuel write).ReturnsAtMost := by
  intro context size result data next hread
  obtain ⟨⟨_, _, _, socket⟩, hrecv, hresult⟩ := bind_eq_ok_iff.mp hread
  cases hresult
  by_cases hsize : size = 0
  · simp only [Socket.recv_from, hsize, if_true, ok.injEq, Prod.mk.injEq] at hrecv
    obtain ⟨rfl, rfl, _, _⟩ := hrecv
    exact ⟨rfl, Nat.zero_le _⟩
  · simp only [Socket.recv_from, hsize, if_false] at hrecv
    obtain ⟨⟨err, last⟩, hloop, hlast⟩ := bind_eq_ok_iff.mp hrecv
    cases hlast
    have hstart : ({ context, remain_read_size := size, remote := {} } : Receiving).Counted size :=
      ⟨by simp, Nat.zero_le _⟩
    exact loop_invariant (recv_pass size) (Receiving.Counted size) (fun result => result.2.Counted size)
      (fun _ _ => recv_pass_counted) hstart hloop

/-- A netbuf that has all its bytes in its first fragment, and has some. -/
structure NetBuf.Whole (buf : NetBuf) : Prop where
  arrived : buf.Arrived
  first : (netbuf_data buf).2 = buf.bytes
  nonempty : buf.bytes ≠ []

/-- The bytes that a connection has still to give when no chain has a second
fragment and no receive fails. -/
structure SocketContext.Pending (context : SocketContext) (bytes : List UInt8) : Prop where
  valid : context.Valid
  answers : ∀ answer ∈ context.m_handle, ∃ buf, answer = .received buf ∧ buf.Whole
  held : ∀ buf, context.m_recv_buf = some buf → buf.Whole
  bytes : context.unread ++ (context.m_handle.filterMap RecvAnswer.netbuf?).flatMap NetBuf.bytes = bytes

namespace SocketContext.Pending

variable {bytes : List UInt8} {buf : NetBuf} {offset : UInt32} {m_handle : List RecvAnswer}

theorem exists_reads_from (h : context.Pending bytes) (hne : bytes ≠ []) :
    ∃ buf offset m_handle, context.reads_from = some (buf, offset, m_handle) := by
  unfold SocketContext.reads_from
  cases hbuf : context.m_recv_buf with
  | some buf => exact ⟨buf, _, _, rfl⟩
  | none =>
    cases hhandle : context.m_handle with
    | nil =>
      refine absurd h.bytes.symm ?_
      simpa [SocketContext.unread, hbuf, hhandle] using hne
    | cons answer m_handle =>
      obtain ⟨buf, rfl, _⟩ := h.answers answer (by simp [hhandle])
      exact ⟨buf, 0, m_handle, rfl⟩

/-- What a call reads from has unread bytes in its first fragment, and the
netbufs behind it are as before. -/
theorem reads_from (h : context.Pending bytes)
    (hreads : context.reads_from = some (buf, offset, m_handle)) :
    buf.Whole ∧ offset.toNat < buf.bytes.length ∧ (∀ answer ∈ m_handle, answer ∈ context.m_handle) ∧
      bytes = buf.bytes.drop offset.toNat ++ (m_handle.filterMap RecvAnswer.netbuf?).flatMap NetBuf.bytes := by
  rcases SocketContext.reads_from_cases hreads with ⟨hbuf, rfl, rfl⟩ | ⟨hbuf, rfl, hhandle⟩
  · have hwhole := h.held buf hbuf
    refine ⟨hwhole, ?_, fun _ hanswer => hanswer, ?_⟩
    · rw [← hwhole.first]
      exact (h.valid.held buf hbuf).2
    · rw [← h.bytes, ← SocketContext.unread_taken hreads hwhole.arrived.current]
      simp
  · obtain ⟨other, hother, hwhole⟩ := h.answers (.received buf) (by simp [hhandle])
    cases hother
    refine ⟨hwhole, List.length_pos_of_ne_nil hwhole.nonempty, fun answer hanswer => ?_, ?_⟩
    · rw [hhandle]
      exact List.mem_cons_of_mem _ hanswer
    · rw [← h.bytes, ← SocketContext.unread_taken hreads hwhole.arrived.current, hhandle]
      simp [RecvAnswer.netbuf?]

end SocketContext.Pending

theorem SocketContext.stream_delivers (hfuel : 2 ≤ fuel) :
    (SocketContext.stream fuel write).Delivers SocketContext.Pending := by
  intro context bytes size h hne hsize
  have hnonzero : size ≠ 0 := by
    rintro rfl
    cases hsize
  obtain ⟨buf, offset, m_handle, hreads⟩ := h.exists_reads_from hne
  obtain ⟨hwhole, hoffset, hanswers, hbytes⟩ := h.reads_from hreads
  obtain ⟨fragment, rest, data, hp, hle, harrived, hdata, hrecv, hvalid⟩ :=
    h.valid.recv_from_reads hreads hnonzero {} hfuel
  have hpayload : fragment.payload = buf.bytes := (harrived.data hp).symm.trans hwhole.first
  have hlength : data.length = min size.toNat (buf.bytes.length - offset.toNat) := by
    rw [hdata, List.length_take, List.length_drop, hpayload]
  have hunread := (harrived.unread_after_read hp hle hdata m_handle).mpr (.inl hwhole.first)
  refine ⟨data, _, _, ?_, List.ne_nil_of_length_pos (by omega), by omega, ?_, hvalid, ?_, ?_, rfl⟩
  · rw [SocketContext.stream]
    simp only [hrecv, bind_ok, Option.getD_some]
  · rw [hbytes, ← hunread, List.append_assoc]
    rfl
  · intro answer hanswer
    exact h.answers answer (hanswers answer hanswer)
  · intro other hother
    simp only [SocketContext.after_read] at hother
    split at hother
    · cases hother
    · cases hother
      exact hwhole

end kfw.net
