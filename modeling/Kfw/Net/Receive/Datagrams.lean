import Kfw.Net.Receive

open exec Result

namespace kfw.net

structure UdpClient where
  m_socket : Socket SocketContext := {}
  deriving DecidableEq

namespace UdpClient

def recv (self : UdpClient) (data_size : UInt32) (remote : SocketAddress) (fuel : Nat) :
    Exec (RetVal UInt32 × List UInt8 × SocketAddress × UdpClient) := do
  let (result, data, remote, m_socket) ← self.m_socket.recv_from data_size remote fuel
  ok (result, data, remote, { self with m_socket })

/-- A receive of more than no bytes, of which only what it leaves behind counts. -/
def receive (fuel : Nat) (self : UdpClient) (data_size : { size : UInt32 // size ≠ 0 }) : Exec UdpClient := do
  let (_, _, _, next) ← self.recv data_size {} fuel
  ok next

/-- The datagrams, and errors, that the connection has still to give. No receive
so far has seen anything of them. -/
def to_come (self : UdpClient) : List RecvAnswer := self.m_socket.m_context.elim [] SocketContext.m_handle

/-- A receive that succeeds returns a prefix of the next datagram to come, with
its sender. -/
def KeepsBoundary (fuel : Nat) (self : UdpClient) (data_size : { size : UInt32 // size ≠ 0 }) : Prop :=
  ∀ result data remote next, self.recv data_size {} fuel = ok (result, data, remote, next) →
    is_failed result.ret = false →
      ∃ datagram, self.to_come = .received datagram :: next.to_come ∧ data <+: datagram.bytes ∧
        remote = datagram.sender

/-- A receive asks for at least the first fragment of the next datagram. -/
def TakesWhole (self : UdpClient) (data_size : { size : UInt32 // size ≠ 0 }) : Prop :=
  ∀ datagram others, self.to_come = .received datagram :: others →
    (netbuf_data datagram).2.length ≤ data_size.val.toNat

/-- An open client, with what it holds of an earlier datagram. -/
def Holds (self : UdpClient) (held : Option NetBuf) : Prop :=
  ∃ context, self.m_socket = { m_context := some context } ∧ context.Valid ∧ context.m_recv_buf = held

variable {self : UdpClient} {size : { size : UInt32 // size ≠ 0 }} {fuel : Nat} {buf : NetBuf}

theorem recv_eq {result : RetVal UInt32} {data : List UInt8} {remote : SocketAddress}
    {m_socket : Socket SocketContext}
    (hrecv : self.m_socket.recv_from size {} fuel = ok (result, data, remote, m_socket)) :
    self.recv size {} fuel = ok (result, data, remote, { m_socket }) := by
  rw [recv, hrecv, bind_ok]

theorem receive_eq {result : RetVal UInt32} {data : List UInt8} {remote : SocketAddress} {next : UdpClient}
    (hrecv : self.recv size {} fuel = ok (result, data, remote, next)) : self.receive fuel size = ok next := by
  rw [receive, hrecv, bind_ok]

/-- The rest of an earlier datagram is returned before anything that is to come. -/
theorem Holds.not_keepsBoundary (h : self.Holds (some buf)) (hfuel : 2 ≤ fuel) :
    ¬ self.KeepsBoundary fuel size := by
  obtain ⟨context, hsocket, hvalid, hbuf⟩ := h
  have hreads : context.reads_from = some (buf, context.m_recv_buf_offset, context.m_handle) := by
    rw [SocketContext.reads_from, hbuf]
  obtain ⟨_, _, data, _, _, _, _, hrecv, _⟩ := hvalid.recv_from_reads hreads size.property {} hfuel
  rw [← hsocket] at hrecv
  intro hkeeps
  obtain ⟨datagram, hcome, _⟩ := hkeeps _ _ _ _ (recv_eq hrecv) rfl
  have hlength := congrArg List.length hcome
  simp [to_come, hsocket, SocketContext.after_read] at hlength

/-- A client that holds nothing keeps the boundary, and then holds nothing
exactly if the datagram was taken whole. -/
theorem Holds.receive (h : self.Holds none) (hfuel : 2 ≤ fuel) (size : { size : UInt32 // size ≠ 0 }) :
    self.KeepsBoundary fuel size ∧
      (self.receive fuel size = div ∧ self.TakesWhole size ∨
        ∃ next, self.receive fuel size = ok next ∧
          (next.Holds none ∧ self.TakesWhole size ∨ ∃ buf, next.Holds (some buf) ∧ ¬ self.TakesWhole size)) := by
  obtain ⟨context, hsocket, hvalid, hbuf⟩ := h
  have hcome : self.to_come = context.m_handle := by rw [to_come, hsocket, Option.elim_some]
  cases hreads : context.reads_from with
  | none =>
    have htakes : self.TakesWhole size := by
      intro datagram others hdatagram
      simp [SocketContext.reads_from, hbuf, ← hcome, hdatagram] at hreads
    obtain ⟨_, ⟨_, hdiv⟩ | ⟨err, herr, m_handle, hhandle, hfailed⟩⟩ :=
      recv_from_idle hreads size.property {} hfuel
    · rw [← hsocket] at hdiv
      have hrecv : self.recv size {} fuel = div := by rw [recv, hdiv, bind_div]
      refine ⟨by simp [KeepsBoundary, hrecv], .inl ⟨?_, htakes⟩⟩
      rw [UdpClient.receive, hrecv, bind_div]
    · rw [← hsocket] at hfailed
      have hrecv := recv_eq hfailed
      refine ⟨?_, .inr ⟨_, receive_eq hrecv, .inl ⟨⟨_, rfl, hvalid.tail hhandle, hbuf⟩, htakes⟩⟩⟩
      intro result data remote next hok hsucceeds
      cases hrecv.symm.trans hok
      rw [is_failed_lwip_err_to_ret herr] at hsucceeds
      cases hsucceeds
  | some read =>
    obtain ⟨datagram, offset, m_handle⟩ := read
    obtain ⟨fragment, rest, data, hp, _, harrived, hdata, hread, hnext⟩ :=
      hvalid.recv_from_reads hreads size.property {} hfuel
    rw [← hsocket] at hread
    have hrecv := recv_eq hread
    have hpayload := harrived.data hp
    obtain ⟨hheld, _⟩ | ⟨_, rfl, hhandle⟩ := SocketContext.reads_from_cases hreads
    · cases hbuf.symm.trans hheld
    have hlength : data.length = min size.val.toNat fragment.payload.length := by
      rw [hdata, List.length_take, UInt32.toNat_zero, List.drop_zero]
    have htakes : self.TakesWhole size ↔ fragment.payload.length ≤ size.val.toNat := by
      rw [← hpayload, TakesWhole, hcome, hhandle]
      simp
    refine ⟨?_, .inr ⟨_, receive_eq hrecv, ?_⟩⟩
    · intro result data' remote next hok _
      cases hrecv.symm.trans hok
      refine ⟨datagram, hcome.trans hhandle, ?_, rfl⟩
      rw [hdata, NetBuf.bytes, hp, List.flatMap_cons, UInt32.toNat_zero, List.drop_zero]
      exact (List.take_prefix _ _).trans (List.prefix_append _ _)
    · by_cases hfits : fragment.payload.length ≤ size.val.toNat
      · refine .inl ⟨⟨_, rfl, hnext, ?_⟩, htakes.mpr hfits⟩
        rw [SocketContext.after_read, hpayload, UInt32.toNat_zero, if_pos (by omega)]
      · refine .inr ⟨datagram, ⟨_, rfl, hnext, ?_⟩, fun htaken => hfits (htakes.mp htaken)⟩
        rw [SocketContext.after_read, hpayload, UInt32.toNat_zero, if_neg (by omega)]

/-- A client that holds nothing keeps all boundaries exactly if every receive
but the last asks for the whole of the datagram it takes. -/
theorem Holds.keepsBoundary_iff (h : self.Holds none) (hfuel : 2 ≤ fuel)
    (sizes : List { size : UInt32 // size ≠ 0 }) (last : { size : UInt32 // size ≠ 0 }) :
    Along (UdpClient.receive fuel) (KeepsBoundary fuel) self (sizes ++ [last]) ↔
      Along (UdpClient.receive fuel) TakesWhole self sizes := by
  induction sizes generalizing self with
  | nil => exact iff_of_true ⟨(h.receive hfuel last).1, fun _ _ => trivial⟩ trivial
  | cons size sizes ih =>
    obtain ⟨hkeeps, ⟨hdiv, htakes⟩ | ⟨next, hok, hnext⟩⟩ := h.receive hfuel size
    · refine iff_of_true ⟨hkeeps, ?_⟩ ⟨htakes, ?_⟩
      all_goals simp [hdiv]
    · rw [List.cons_append, along_cons_of_ok hok, along_cons_of_ok hok]
      obtain ⟨hempty, htakes⟩ | ⟨buf, hholds, htakes⟩ := hnext
      · rw [ih hempty]
        exact and_congr_left fun _ => iff_of_true hkeeps htakes
      · -- whatever receive comes next returns the rest
        refine iff_of_false (fun hall => ?_) fun htaken => htakes htaken.1
        cases sizes with
        | nil => exact hholds.not_keepsBoundary hfuel hall.2.1
        | cons size sizes => exact hholds.not_keepsBoundary hfuel hall.2.1

end UdpClient

/-- Whatever datagrams arrive, each receive returns a prefix of a datagram of
which nothing was returned before exactly if every receive but the last asks for
at least the first fragment of the datagram it takes. -/
theorem udp_recv_keeps_boundary_iff {arrived : List RecvAnswer}
    (harrived : ∀ buf, .received buf ∈ arrived → buf.Arrived) {fuel : Nat} (hfuel : 2 ≤ fuel)
    (sizes : List { size : UInt32 // size ≠ 0 }) (last : { size : UInt32 // size ≠ 0 }) :
    Along (UdpClient.receive fuel) (UdpClient.KeepsBoundary fuel)
        { m_socket := { m_context := some { m_handle := arrived } } } (sizes ++ [last]) ↔
      Along (UdpClient.receive fuel) UdpClient.TakesWhole
        { m_socket := { m_context := some { m_handle := arrived } } } sizes := by
  refine UdpClient.Holds.keepsBoundary_iff ⟨_, rfl, ⟨harrived, ?_⟩, rfl⟩ hfuel sizes last
  simp

/-- A datagram of two bytes. -/
def two_bytes : NetBuf where
  p := [⟨[1, 2], by decide⟩]
  ptr := [⟨[1, 2], by decide⟩]
  addr := 0x0a000001
  port := 123

theorem two_bytes_arrived {buf : NetBuf} (hbuf : .received buf ∈ [RecvAnswer.received two_bytes]) :
    buf.Arrived := by
  obtain rfl : buf = two_bytes := by simpa using hbuf
  exact ⟨rfl, by simp [two_bytes]⟩

theorem udp_recv_keeps_boundary_two :
    Along (UdpClient.receive 2) (UdpClient.KeepsBoundary 2)
      { m_socket := { m_context := some { m_handle := [.received two_bytes] } } }
      [⟨2, by decide⟩, ⟨1, by decide⟩] := by
  refine (udp_recv_keeps_boundary_iff (fun _ => two_bytes_arrived) (Nat.le_refl 2) [⟨2, by decide⟩]
    ⟨1, by decide⟩).mpr ⟨?_, fun _ _ => trivial⟩
  intro datagram others hcome
  obtain ⟨rfl, rfl⟩ : two_bytes = datagram ∧ [] = others := by simpa [UdpClient.to_come] using hcome
  decide

/-- After a receive of one byte the next one returns the rest of the datagram. -/
theorem udp_recv_returns_tail :
    (∀ buf, .received buf ∈ [RecvAnswer.received two_bytes] → buf.Arrived) ∧
      ¬ Along (UdpClient.receive 2) (UdpClient.KeepsBoundary 2)
        { m_socket := { m_context := some { m_handle := [.received two_bytes] } } }
        [⟨1, by decide⟩, ⟨1, by decide⟩] := by
  refine ⟨fun _ => two_bytes_arrived, fun hkeeps => ?_⟩
  obtain ⟨held, hheld⟩ : ∃ held : UdpClient, held = {
      m_socket := { m_context := some { m_handle := [], m_recv_buf := some two_bytes, m_recv_buf_offset := 1 } } } :=
    ⟨_, rfl⟩
  have hfirst : UdpClient.receive 2 { m_socket := { m_context := some { m_handle := [.received two_bytes] } } }
      ⟨1, by decide⟩ = ok held := by
    rw [hheld]
    decide +kernel
  have htail : held.recv 1 {} 2 = ok (⟨kOk, 1⟩, [2], two_bytes.sender,
      { m_socket := { m_context := some { m_handle := [], m_recv_buf := none, m_recv_buf_offset := 2 } } }) := by
    rw [hheld]
    decide +kernel
  obtain ⟨datagram, hcome, _⟩ := (hkeeps.2 held hfirst).1 _ _ _ _ htail rfl
  simp [hheld, UdpClient.to_come] at hcome

end kfw.net
