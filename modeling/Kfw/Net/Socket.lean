import Kfw.Common.Heap
import Kfw.Io.Stream

open exec Result kfw.io

namespace kfw.net

def kComponentNet : BitVec 32 := 2

def kESocketConnectionReset : ret_t := make_err_ret kComponentNet 1
def kESocketAborted : ret_t := make_err_ret kComponentNet 2
def kESocketClosed : ret_t := make_err_ret kComponentNet 3

def ERR_OK : Int := 0

def lwip_err_to_ret (err : Int) : ret_t :=
  match err with
  | 0 => kOk
  | -1 => kEOutOfMemory
  | -2 => kEOutOfMemory
  | -3 => kETimeout
  | -4 => kEInvalidOperation
  | -6 => kEArgument
  | -7 => kEInvalidOperation
  | -8 => kEInvalidOperation
  | -9 => kEInvalidOperation
  | -10 => kEInvalidOperation
  | -11 => kEInvalidOperation
  | -12 => kEInvalidOperation
  | -13 => kESocketAborted
  | -14 => kESocketConnectionReset
  | -15 => kESocketClosed
  | -16 => kEArgument
  | _ => kEInvalidOperation

theorem is_failed_lwip_err_to_ret {err : Int} (herr : err ≠ ERR_OK) : is_failed (lwip_err_to_ret err) = true := by
  unfold lwip_err_to_ret
  split
  · exact absurd rfl herr
  all_goals rfl

/-- A `Socket` with the state of its connection while it is open. -/
structure Socket (σ : Type) where
  m_context : Option σ := none
  deriving DecidableEq

def sizeof_SocketContext : UInt32 := 12

variable {σ : Type}

namespace Socket

def close (_self : Socket σ) : Socket σ := { m_context := none }

/-- The connection that `close` hands to `netconn_close` and `netconn_delete`, if the socket
has one. -/
def closes (self : Socket σ) : List σ := self.m_context.toList

/-- `accept` on a listening socket; `accepted` is what `netconn_accept` answers,
an error and the connection. The keep-alive option that is then set changes
nothing that is modelled. -/
def accept (allocator : Allocator) (self : Socket Unit) (heap : Heap) (socket : Socket σ) (accepted : Int × σ) :
    ret_t × Socket σ × Heap :=
  if self.m_context.isNone then (kEDisposed, socket, heap)
  else if socket.m_context.isSome then (kEArgument, socket, heap)
  else
    match heap.new_chars allocator sizeof_SocketContext with
    | (none, heap) => (kEOutOfMemory, socket, heap)
    | (some _, heap) =>
      if accepted.1 ≠ ERR_OK then (lwip_err_to_ret accepted.1, socket, heap)
      else (kOk, { m_context := some accepted.2 }, heap)

theorem accept_live (allocator : Allocator) (self : Socket Unit) (heap : Heap) (socket : Socket σ)
    (accepted : Int × σ) : (accept allocator self heap socket accepted).2.2.live = heap.live := by
  have hlive := Heap.new_chars_live allocator heap sizeof_SocketContext
  unfold accept
  split
  · rfl
  · split
    · rfl
    · split
      · next hnew =>
        rwa [hnew] at hlive
      · next hnew =>
        rw [hnew] at hlive
        split
        · exact hlive
        · exact hlive

theorem accept_granted {allocator : Allocator} (hgrants : allocator.Grants) {self : Socket Unit}
    (hself : self.m_context.isSome) (heap : Heap) {socket : Socket σ}
    (hsocket : socket.m_context = none) (state : σ) :
    accept allocator self heap socket (ERR_OK, state) = (kOk, { m_context := some state }, heap.asked) := by
  obtain ⟨chars, hnew, _⟩ := Heap.new_chars_granted hgrants heap sizeof_SocketContext
  simp [accept, Option.isSome_iff_ne_none.mp hself, hsocket, hnew]

/-- With memory for every request, the answer of `accept` does not depend on the
heap, whose blocks stay as they are. -/
theorem accept_heap {allocator : Allocator} (hgrants : allocator.Grants) (self : Socket Unit)
    (socket : Socket σ) (accepted : Int × σ) :
    ∃ r next, ∀ heap : Heap, ∃ nextHeap, accept allocator self heap socket accepted = (r, next, nextHeap) ∧
      nextHeap.live = heap.live := by
  cases hself : self.m_context with
  | none => exact ⟨kEDisposed, socket, fun heap => ⟨heap, by simp [accept, hself], rfl⟩⟩
  | some listening =>
    cases hsocket : socket.m_context with
    | some state => exact ⟨kEArgument, socket, fun heap => ⟨heap, by simp [accept, hself, hsocket], rfl⟩⟩
    | none =>
      by_cases hok : accepted.1 = ERR_OK
      · refine ⟨kOk, { m_context := some accepted.2 }, fun heap => ⟨heap.asked, ?_, rfl⟩⟩
        obtain ⟨chars, hnew, _⟩ := Heap.new_chars_granted hgrants heap sizeof_SocketContext
        simp [accept, hself, hsocket, hnew, hok]
      · refine ⟨lwip_err_to_ret accepted.1, socket, fun heap => ⟨heap.asked, ?_, rfl⟩⟩
        obtain ⟨chars, hnew, _⟩ := Heap.new_chars_granted hgrants heap sizeof_SocketContext
        simp [accept, hself, hsocket, hnew, hok]

end Socket

structure TcpClient (σ : Type) where
  m_socket : Socket σ := {}
  deriving DecidableEq

def TcpClient.dispose (self : TcpClient σ) : TcpClient σ := { m_socket := self.m_socket.close }

structure TcpServer where
  m_socket : Socket Unit := {}

def TcpServer.accept_tcp_client (allocator : Allocator) (self : TcpServer) (heap : Heap) (client : TcpClient σ)
    (accepted : Int × σ) : ret_t × TcpClient σ × Heap :=
  let (r, m_socket, heap) := self.m_socket.accept allocator heap client.m_socket accepted
  (r, { m_socket }, heap)

/-- The `SocketStream` of a socket, where `conn` is how an open connection
receives and sends. -/
def SocketStream (conn : Stream σ) : Stream (Socket σ) where
  read socket size :=
    match socket.m_context with
    | none => ok (⟨kEDisposed, 0⟩, [], socket)
    | some state =>
      if size = 0 then ok (⟨kOk, 0⟩, [], socket)
      else do
        let (r, data, state) ← conn.read state size
        ok (r, data, { m_context := some state })
  write socket data :=
    match socket.m_context with
    | none => ok (⟨kEDisposed, 0⟩, socket)
    | some state =>
      if data = [] then ok (⟨kOk, 0⟩, socket)
      else do
        let (r, state) ← conn.write state data
        ok (r, { m_context := some state })
  flush socket := ok socket

/-- A property of the connection of an open socket. -/
def Socket.Open (P : σ → List UInt8 → Prop) (socket : Socket σ) (bytes : List UInt8) : Prop :=
  ∃ state, socket.m_context = some state ∧ P state bytes

variable {conn : Stream σ}

theorem SocketStream.delivers {pending : σ → List UInt8 → Prop} (hconn : conn.Delivers pending) :
    (SocketStream conn).Delivers (Socket.Open pending) := by
  rintro socket bytes size ⟨state, hsocket, hpending⟩ hbytes hsize
  obtain ⟨data, rest, next, hread, hdata, hlength, hsplit, hnext⟩ := hconn state bytes size hpending hbytes hsize
  have hnonzero : size ≠ 0 := by
    rintro rfl
    exact absurd hsize (by decide)
  refine ⟨data, rest, { m_context := some next }, ?_, hdata, hlength, hsplit, next, rfl, hnext⟩
  simp only [SocketStream, hsocket, if_neg hnonzero, hread, bind_ok]

theorem SocketStream.breaksOff {pending : σ → List UInt8 → Prop} (hconn : conn.BreaksOff pending) :
    (SocketStream conn).BreaksOff (Socket.Open pending) where
  delivers := delivers hconn.delivers
  fails := by
    rintro socket size ⟨state, hsocket, hpending⟩ hsize
    obtain ⟨r, data, next, hread, hr, hdata, hnext⟩ := hconn.fails state size hpending hsize
    have hnonzero : size ≠ 0 := by
      rintro rfl
      exact absurd hsize (by decide)
    refine ⟨r, data, { m_context := some next }, ?_, hr, hdata, next, rfl, hnext⟩
    simp only [SocketStream, hsocket, if_neg hnonzero, hread, bind_ok]

theorem SocketStream.returnsAtMost (hconn : conn.ReturnsAtMost) : (SocketStream conn).ReturnsAtMost := by
  intro socket size r data next hread
  simp only [SocketStream] at hread
  split at hread
  · cases hread
    exact ⟨rfl, Nat.zero_le _⟩
  · split at hread
    · cases hread
      exact ⟨rfl, Nat.zero_le _⟩
    · obtain ⟨⟨r', data', state'⟩, hanswer, hresult⟩ := bind_eq_ok_iff.mp hread
      cases hresult
      exact hconn _ _ _ _ _ hanswer

theorem SocketStream.accepts {sent : σ → List UInt8 → Prop} (hconn : conn.Accepts sent) :
    (SocketStream conn).Accepts (Socket.Open sent) := by
  constructor
  · rintro socket bytes data ⟨state, hsocket, hsent⟩
    by_cases hdata : data = []
    · refine ⟨socket, ?_, state, hsocket, by simpa [hdata] using hsent⟩
      simp [SocketStream, hsocket, hdata]
    · obtain ⟨next, hwrite, hnext⟩ := hconn.write state bytes data hsent
      refine ⟨{ m_context := some next }, ?_, next, rfl, hnext⟩
      simp only [SocketStream, hsocket, if_neg hdata, hwrite, bind_ok]
  · intro socket bytes hsent
    exact ⟨socket, rfl, hsent⟩

end kfw.net
