import Kfw.Lib.Run
import Kfw.Net.Socket

open exec Result kfw.io

namespace kfw.net

def ERR_BUF : Int := -2

structure SocketAddress where
  m_address : UInt32 := 0
  m_port : Int := 0
  deriving DecidableEq

/-- A packet buffer: one fragment, whose length is a `u16_t`. -/
structure Pbuf where
  payload : List UInt8
  len_lt : payload.length < 2 ^ 16
  deriving DecidableEq

/-- A `netbuf`: its chain of fragments, the part of it from the current fragment
on, and the sender. -/
structure NetBuf where
  p : List Pbuf
  ptr : List Pbuf
  addr : UInt32 := 0
  port : UInt16 := 0
  deriving DecidableEq

/-- The bytes of all fragments. -/
def NetBuf.bytes (buf : NetBuf) : List UInt8 := buf.p.flatMap Pbuf.payload

def NetBuf.sender (buf : NetBuf) : SocketAddress := { m_address := buf.addr, m_port := buf.port.toNat }

/-- The current fragment only. -/
def netbuf_data (buf : NetBuf) : Int × List UInt8 :=
  match buf.ptr with
  | [] => (ERR_BUF, [])
  | fragment :: _ => (ERR_OK, fragment.payload)

/-- An answer of `netconn_recv`: an error, or a netbuf. -/
inductive RecvAnswer where
  | failed (err : Int) (herr : err ≠ ERR_OK)
  | received (buf : NetBuf)
  deriving DecidableEq

/-- A `SocketContext`. Its netconn is given by the answers of `netconn_recv` to
come, after which it waits for ever. -/
structure SocketContext where
  m_handle : List RecvAnswer
  m_recv_buf : Option NetBuf := none
  m_recv_buf_offset : UInt32 := 0
  deriving DecidableEq

/-- Where the loop of `recv_from` stands: the context, the size that remains, the
bytes put in the caller's buffer, and the remote address. -/
structure Receiving where
  context : SocketContext
  remain_read_size : UInt32
  out : List UInt8 := []
  remote : SocketAddress

/-- One pass through the loop of `recv_from`. The caller's buffer has room for
`size` bytes. -/
def recv_pass (size : UInt32) (receiving : Receiving) : Exec (Flow Receiving (Int × Receiving)) :=
  let { context, remain_read_size, out, remote := _ } := receiving
  if remain_read_size = 0 then ok (.done (ERR_OK, receiving))
  else
    match context.m_recv_buf with
    | some buf =>
      let (err, data) := netbuf_data buf
      if err ≠ ERR_OK then ok (.done (err, receiving))
      else
        let remain_size := data.length.toUInt32 - context.m_recv_buf_offset
        let copy_size := if size > remain_size then remain_size else size
        let copied := (data.drop context.m_recv_buf_offset.toNat).take copy_size.toNat
        if copied.length < copy_size.toNat ∨ size.toNat < out.length + copy_size.toNat then fail .invalid_access
        else
          let m_recv_buf_offset := context.m_recv_buf_offset + copy_size
          -- at the end of the fragment the whole chain is deleted
          let m_recv_buf := if m_recv_buf_offset = data.length.toUInt32 then none else some buf
          ok (.done (ERR_OK, {
            context := { context with m_recv_buf, m_recv_buf_offset }
            remain_read_size := remain_read_size - copy_size
            out := out ++ copied
            remote := buf.sender }))
    | none =>
      match context.m_handle with
      | [] => div
      | .failed err _ :: m_handle => ok (.done (err, { receiving with context := { context with m_handle } }))
      | .received buf :: m_handle => ok (.cont { receiving with
          context := { m_handle, m_recv_buf := some buf, m_recv_buf_offset := 0 } })

/-- `recv_from` with a buffer that is not null. -/
def Socket.recv_from (self : Socket SocketContext) (size : UInt32) (remote : SocketAddress) (fuel : Nat) :
    Exec (RetVal UInt32 × List UInt8 × SocketAddress × Socket SocketContext) :=
  match self.m_context with
  | none => ok (⟨kEDisposed, 0⟩, [], remote, self)
  | some context =>
    if size = 0 then ok (⟨kOk, 0⟩, [], remote, self)
    else do
      let (err, last) ← loop (recv_pass size) fuel { context, remain_read_size := size, remote }
      ok (⟨lwip_err_to_ret err, size - last.remain_read_size⟩, last.out, last.remote,
        { m_context := some last.context })

namespace SocketContext

/-- What a call reads from: the netbuf that is held, or the next one, with the
offset in it and the answers that are then still to come. -/
def reads_from (context : SocketContext) : Option (NetBuf × UInt32 × List RecvAnswer) :=
  match context.m_recv_buf with
  | some buf => some (buf, context.m_recv_buf_offset, context.m_handle)
  | none =>
    match context.m_handle with
    | .received buf :: m_handle => some (buf, 0, m_handle)
    | _ => none

end SocketContext

/-- A chain of one or more fragments, at its beginning. -/
structure NetBuf.Arrived (buf : NetBuf) : Prop where
  current : buf.ptr = buf.p
  fragments : buf.p ≠ []

/-- All netbufs to come are chains, and the one that is held is not read to the
end of its first fragment. -/
structure SocketContext.Valid (context : SocketContext) : Prop where
  arrived : ∀ buf, .received buf ∈ context.m_handle → buf.Arrived
  held : ∀ buf, context.m_recv_buf = some buf → buf.Arrived ∧
    context.m_recv_buf_offset.toNat < (netbuf_data buf).2.length

/-- The context after `count` bytes were read from a netbuf at an offset. -/
def SocketContext.after_read (m_handle : List RecvAnswer) (buf : NetBuf) (offset : UInt32) (count : Nat) :
    SocketContext where
  m_handle
  m_recv_buf := if offset.toNat + count = (netbuf_data buf).2.length then none else some buf
  m_recv_buf_offset := offset + count.toUInt32

variable {size : UInt32} {context : SocketContext} {buf : NetBuf}

/-- As much is copied as is asked for and is there. -/
theorem copy_size_toNat {len offset : UInt32} (hoffset : offset ≤ len) :
    (if size > len - offset then len - offset else size).toNat = min size.toNat (len.toNat - offset.toNat) := by
  have hremain := UInt32.toNat_sub_of_le _ _ hoffset
  split
  · rename_i hlarge
    rw [gt_iff_lt, UInt32.lt_iff_toNat_lt] at hlarge
    omega
  · rename_i hfits
    rw [gt_iff_lt, UInt32.lt_iff_toNat_lt] at hfits
    omega

/-- A pass with a netbuf at hand reads from its current fragment. -/
theorem recv_pass_held {fragment : Pbuf} {rest : List Pbuf} (hptr : buf.ptr = fragment :: rest)
    (hbuf : context.m_recv_buf = some buf)
    (hoffset : context.m_recv_buf_offset.toNat ≤ fragment.payload.length) (hsize : size ≠ 0)
    (remote : SocketAddress) :
    ∃ data remain_read_size, data = (fragment.payload.drop context.m_recv_buf_offset.toNat).take size.toNat ∧
      size - remain_read_size = data.length.toUInt32 ∧
      recv_pass size { context, remain_read_size := size, remote } = ok (.done (ERR_OK, {
        context := .after_read context.m_handle buf context.m_recv_buf_offset data.length
        remain_read_size
        out := data
        remote := buf.sender })) := by
  have hdata : netbuf_data buf = (ERR_OK, fragment.payload) := by rw [netbuf_data, hptr]
  have hlen := fragment.len_lt
  have hlength : fragment.payload.length.toUInt32.toNat = fragment.payload.length :=
    Nat.mod_eq_of_lt (by omega)
  obtain ⟨copy_size, hcopy⟩ : ∃ copy_size, copy_size =
      if size > fragment.payload.length.toUInt32 - context.m_recv_buf_offset then
        fragment.payload.length.toUInt32 - context.m_recv_buf_offset else size := ⟨_, rfl⟩
  have hcount : copy_size.toNat =
      min size.toNat (fragment.payload.length - context.m_recv_buf_offset.toNat) := by
    rw [hcopy, copy_size_toNat (UInt32.le_iff_toNat_le.mpr (by omega)), hlength]
  obtain ⟨data, hdataEq⟩ : ∃ data, data =
      (fragment.payload.drop context.m_recv_buf_offset.toNat).take size.toNat := ⟨_, rfl⟩
  have hdataLength : data.length = copy_size.toNat := by
    rw [hdataEq, List.length_take, List.length_drop, hcount]
  have hcopied : (fragment.payload.drop context.m_recv_buf_offset.toNat).take copy_size.toNat = data := by
    rw [hdataEq, List.take_eq_take_iff, List.length_drop, hcount]
    omega
  have hoffsetNext : (context.m_recv_buf_offset + copy_size).toNat =
      context.m_recv_buf_offset.toNat + copy_size.toNat := by
    rw [UInt32.toNat_add]
    exact Nat.mod_eq_of_lt (by omega)
  have hend : (context.m_recv_buf_offset + copy_size = fragment.payload.length.toUInt32) ↔
      context.m_recv_buf_offset.toNat + data.length = fragment.payload.length := by
    rw [← UInt32.toNat_inj, hoffsetNext, hlength, hdataLength]
  have hcopyEq : copy_size = data.length.toUInt32 := by
    rw [hdataLength, Nat.toUInt32_eq, UInt32.ofNat_toNat]
  refine ⟨data, size - copy_size, hdataEq, ?_, ?_⟩
  · rw [← hcopyEq]
    simp
  · have hroom : ¬ (data.length < copy_size.toNat ∨ size.toNat < ([] : List UInt8).length + copy_size.toNat) := by
      rw [List.length_nil]
      omega
    simp only [recv_pass, hsize, if_false, hbuf, hdata, ne_eq, not_true, ← hcopy, List.nil_append,
      SocketContext.after_read, hcopyEq]
    simp only [← hcopyEq, hend, hcopied, if_neg hroom]

/-- The first fragment of a chain is the one that is read. -/
theorem NetBuf.Arrived.data (h : buf.Arrived) {fragment : Pbuf} {rest : List Pbuf}
    (hp : buf.p = fragment :: rest) : (netbuf_data buf).2 = fragment.payload := by
  rw [netbuf_data, h.current, hp]

/-- What a call reads from is held already, or is taken by the call. -/
theorem SocketContext.reads_from_cases {offset : UInt32} {m_handle : List RecvAnswer}
    (hreads : context.reads_from = some (buf, offset, m_handle)) :
    context.m_recv_buf = some buf ∧ context.m_recv_buf_offset = offset ∧ context.m_handle = m_handle ∨
      context.m_recv_buf = none ∧ offset = 0 ∧ context.m_handle = .received buf :: m_handle := by
  unfold SocketContext.reads_from at hreads
  cases hbuf : context.m_recv_buf with
  | some held =>
    simp only [hbuf, Option.some.injEq, Prod.mk.injEq] at hreads
    obtain ⟨rfl, rfl, rfl⟩ := hreads
    exact .inl ⟨rfl, rfl, rfl⟩
  | none =>
    simp only [hbuf] at hreads
    split at hreads
    · rename_i hhandle
      simp only [Option.some.injEq, Prod.mk.injEq] at hreads
      obtain ⟨rfl, rfl, rfl⟩ := hreads
      exact .inr ⟨rfl, rfl, hhandle⟩
    · cases hreads

namespace SocketContext.Valid

variable {offset : UInt32} {m_handle : List RecvAnswer}

/-- The context after one more answer of `netconn_recv`. -/
theorem tail (h : context.Valid) {answer : RecvAnswer} (hhandle : context.m_handle = answer :: m_handle) :
    ({ context with m_handle } : SocketContext).Valid := by
  refine ⟨fun other hother => h.arrived other ?_, h.held⟩
  rw [hhandle]
  exact List.mem_cons_of_mem _ hother

/-- What a call reads from is a chain, and the offset is in its first fragment. -/
theorem reads_from_split (h : context.Valid) (hreads : context.reads_from = some (buf, offset, m_handle)) :
    ∃ fragment rest, buf.p = fragment :: rest ∧ buf.ptr = fragment :: rest ∧
      offset.toNat ≤ fragment.payload.length ∧ buf.Arrived := by
  have hsource : buf.Arrived ∧ offset.toNat ≤ (netbuf_data buf).2.length := by
    rcases reads_from_cases hreads with ⟨hbuf, rfl, _⟩ | ⟨_, rfl, hhandle⟩
    · exact ⟨(h.held buf hbuf).1, Nat.le_of_lt (h.held buf hbuf).2⟩
    · exact ⟨h.arrived buf (by simp [hhandle]), Nat.zero_le _⟩
  obtain ⟨harrived, hoffset⟩ := hsource
  obtain ⟨fragment, rest, hp⟩ := List.exists_cons_of_ne_nil harrived.fragments
  rw [harrived.data hp] at hoffset
  exact ⟨fragment, rest, hp, harrived.current.trans hp, hoffset, harrived⟩

/-- The context after a call that read something. -/
theorem after_read (h : context.Valid) (hreads : context.reads_from = some (buf, offset, m_handle))
    {fragment : Pbuf} {rest : List Pbuf} (hp : buf.p = fragment :: rest) (harrived : buf.Arrived)
    {data : List UInt8} (hlength : offset.toNat + data.length ≤ fragment.payload.length) :
    (SocketContext.after_read m_handle buf offset data.length).Valid := by
  have hpayload := harrived.data hp
  constructor
  · rcases reads_from_cases hreads with ⟨_, _, rfl⟩ | ⟨_, _, hhandle⟩
    · exact h.arrived
    · exact (h.tail hhandle).arrived
  · intro other hother
    simp only [SocketContext.after_read] at hother ⊢
    split at hother
    · cases hother
    · rename_i hnot
      cases hother
      have hlen := fragment.len_lt
      rw [hpayload] at hnot ⊢
      refine ⟨harrived, ?_⟩
      rw [UInt32.toNat_add]
      change (_ + data.length % 2 ^ 32) % 2 ^ 32 < _
      omega

/-- A call that has something to read returns the next bytes of the first
fragment, as many as were asked for and are there. -/
theorem recv_from_reads (h : context.Valid) (hreads : context.reads_from = some (buf, offset, m_handle))
    (hsize : size ≠ 0) (remote : SocketAddress) {fuel : Nat} (hfuel : 2 ≤ fuel) :
    ∃ fragment rest data, buf.p = fragment :: rest ∧ offset.toNat ≤ fragment.payload.length ∧ buf.Arrived ∧
      data = (fragment.payload.drop offset.toNat).take size.toNat ∧
      Socket.recv_from { m_context := some context } size remote fuel =
        ok (⟨kOk, data.length.toUInt32⟩, data, buf.sender,
          { m_context := some (.after_read m_handle buf offset data.length) }) ∧
      (SocketContext.after_read m_handle buf offset data.length).Valid := by
  obtain ⟨fuel, rfl⟩ : ∃ rest, fuel = rest + 2 := ⟨fuel - 2, by omega⟩
  obtain ⟨fragment, rest, hp, hptr, hoffset, harrived⟩ := h.reads_from_split hreads
  obtain ⟨data, hdata⟩ : ∃ data, data = (fragment.payload.drop offset.toNat).take size.toNat := ⟨_, rfl⟩
  have hlength : offset.toNat + data.length ≤ fragment.payload.length := by
    rw [hdata, List.length_take, List.length_drop]
    omega
  refine ⟨fragment, rest, data, hp, hoffset, harrived, hdata, ?_, h.after_read hreads hp harrived hlength⟩
  rcases reads_from_cases hreads with ⟨hbuf, rfl, rfl⟩ | ⟨hbuf, rfl, hhandle⟩
  · obtain ⟨_, remain, rfl, hremain, hpass⟩ := recv_pass_held hptr hbuf hoffset hsize remote
    rw [← hdata] at hremain hpass
    simp only [Socket.recv_from, hsize, if_false, loop_done (fuel + 1) hpass, bind_ok, hremain]
    rfl
  · -- the first pass takes the netbuf, the second reads from it
    have htake : recv_pass size { context, remain_read_size := size, remote } = ok (.cont {
        context := { m_handle, m_recv_buf := some buf, m_recv_buf_offset := 0 }
        remain_read_size := size
        remote }) := by
      simp only [recv_pass, hsize, if_false, hbuf, hhandle]
    have hheld : ({ m_handle, m_recv_buf := some buf, m_recv_buf_offset := 0 } :
        SocketContext).m_recv_buf = some buf := rfl
    obtain ⟨_, remain, rfl, hremain, hpass⟩ := recv_pass_held hptr hheld hoffset hsize remote
    rw [← hdata] at hremain hpass
    simp only [Socket.recv_from, hsize, if_false, loop_cont (fuel + 1) htake, loop_done fuel hpass, bind_ok,
      hremain]
    rfl

end SocketContext.Valid

/-- A call that has nothing to read waits for ever, or returns the error of
`netconn_recv`. -/
theorem recv_from_idle (hreads : context.reads_from = none) (hsize : size ≠ 0) (remote : SocketAddress)
    {fuel : Nat} (hfuel : 2 ≤ fuel) :
    context.m_recv_buf = none ∧
      (context.m_handle = [] ∧ Socket.recv_from { m_context := some context } size remote fuel = div ∨
      ∃ err herr m_handle, context.m_handle = .failed err herr :: m_handle ∧
        Socket.recv_from { m_context := some context } size remote fuel =
          ok (⟨lwip_err_to_ret err, 0⟩, [], remote, { m_context := some { context with m_handle } })) := by
  obtain ⟨fuel, rfl⟩ : ∃ rest, fuel = rest + 1 := ⟨fuel - 1, by omega⟩
  unfold SocketContext.reads_from at hreads
  cases hbuf : context.m_recv_buf with
  | some held => simp [hbuf] at hreads
  | none =>
    refine ⟨rfl, ?_⟩
    cases hhandle : context.m_handle with
    | nil =>
      have hpass : recv_pass size { context, remain_read_size := size, remote } = div := by
        simp only [recv_pass, hsize, if_false, hbuf, hhandle]
      left
      refine ⟨rfl, ?_⟩
      simp only [Socket.recv_from, hsize, if_false, loop, hpass, bind_div]
    | cons answer others =>
      cases answer with
      | received buf => simp [hbuf, hhandle] at hreads
      | failed err herr =>
        have hpass : recv_pass size { context, remain_read_size := size, remote } = ok (.done (err, {
            context := { context with m_handle := others }
            remain_read_size := size
            remote })) := by
          simp only [recv_pass, hsize, if_false, hbuf, hhandle]
        right
        refine ⟨err, herr, others, rfl, ?_⟩
        simp only [Socket.recv_from, hsize, if_false, loop_done fuel hpass, bind_ok, UInt32.sub_self, hbuf]

end kfw.net
