import Kfw.Net.Ownership

open exec Result

namespace kfw.net

/-- What the memory and lwIP answer while a server is set up: whether there is memory
for a `SocketContext` and a netconn for it, and what `netconn_bind` answers to a port
and `netconn_listen_with_backlog` to a backlog. -/
structure ServerAnswers where
  allocated : Bool
  granted : Bool
  netconn_bind : UInt16 → Int
  netconn_listen_with_backlog : UInt8 → Int

namespace Socket

variable {σ : Type}

/-- `open`, given what the two allocations answer if it comes to them. -/
def open_given (self : Socket σ) (socket_type : SocketType) (allocated : Bool) (handle : Option σ) :
    ret_t × Socket σ :=
  if self.m_context.isSome then (kEInvalidOperation, self)
  else
    match socket_type.nc_type with
    | none => (kEArgument, self)
    | some _ =>
      if ¬ allocated then (kEOutOfMemory, self)
      else
        match handle with
        | none => (kEResource, self)
        | some handle => (kOk, { m_context := some handle })

/-- Apart from the heap and the netconns, this is `open_`. -/
theorem open_eq (allocator : Allocator) (self : Socket socket_handle_t) (netconns : Resources) (heap : Heap)
    (socket_type : SocketType) (granted : Bool) :
    let (r, next, _, _) := open_ allocator self netconns heap socket_type granted
    (r, next) = self.open_given socket_type (heap.new_chars allocator sizeof_SocketContext).1.isSome
      (if granted then some netconns.obtained else none) := by
  cases hself : self.m_context with
  | some handle => simp [open_, open_given, hself]
  | none =>
    cases htype : socket_type.nc_type with
    | none => simp [open_, open_given, hself, htype]
    | some nc_type =>
      rcases hnew : heap.new_chars allocator sizeof_SocketContext with ⟨_ | chars, nextHeap⟩
      · simp [open_, open_given, hself, htype, hnew]
      · cases granted <;> simp [open_, open_given, hself, htype, hnew, netconn_new]

/-- `bind` to a port of any address. -/
def bind (self : Socket σ) (port : Int32) (netconn_bind : UInt16 → Int) : ret_t :=
  if self.m_context.isNone then kEDisposed else lwip_err_to_ret (netconn_bind port.toUInt32.toUInt16)

def listen (self : Socket σ) (backlogs : Int32) (netconn_listen_with_backlog : UInt8 → Int) : ret_t :=
  if self.m_context.isNone then kEDisposed
  else lwip_err_to_ret (netconn_listen_with_backlog backlogs.toUInt32.toUInt8)

end Socket

namespace TcpServer

/-- The option that `set_reuse_addr` sets is not modelled. -/
def create (self : TcpServer) (port : Int32) (answers : ServerAnswers) : ret_t × TcpServer :=
  let (r, m_socket) := self.m_socket.open_given .kTCP answers.allocated
    (if answers.granted then some () else none)
  if is_failed r then (r, { m_socket })
  else
    let r := m_socket.bind port answers.netconn_bind
    if is_failed r then (r, { m_socket }) else (kOk, { m_socket })

def dispose (self : TcpServer) : TcpServer := { m_socket := self.m_socket.close }

def start (self : TcpServer) (answers : ServerAnswers) (backlogs : Int32 := 16) : ret_t :=
  self.m_socket.listen backlogs answers.netconn_listen_with_backlog

variable {answers : ServerAnswers}

/-- Without a netconn a server that is closed stays closed. -/
theorem create_not_opened (port : Int32) (hopen : answers.allocated = false ∨ answers.granted = false) :
    ∃ r, is_failed r = true ∧ ({} : TcpServer).create port answers = (r, {}) := by
  cases hallocated : answers.allocated with
  | false =>
    refine ⟨kEOutOfMemory, rfl, ?_⟩
    simp [create, Socket.open_given, SocketType.nc_type, hallocated, show is_failed kEOutOfMemory = true from rfl]
  | true =>
    have hgranted : answers.granted = false := by simpa [hallocated] using hopen
    refine ⟨kEResource, rfl, ?_⟩
    simp [create, Socket.open_given, SocketType.nc_type, hallocated, hgranted,
      show is_failed kEResource = true from rfl]

/-- With a netconn the server is open, whether `bind` succeeds or not. -/
theorem create_opened (port : Int32) (hallocated : answers.allocated = true) (hgranted : answers.granted = true) :
    ({} : TcpServer).create port answers =
      (lwip_err_to_ret (answers.netconn_bind port.toUInt32.toUInt16),
        { m_socket := { m_context := some () } }) := by
  by_cases hbind : answers.netconn_bind port.toUInt32.toUInt16 = ERR_OK
  · simp [create, Socket.open_given, SocketType.nc_type, Socket.bind, hallocated, hgranted, hbind,
      show lwip_err_to_ret ERR_OK = kOk from rfl]
  · simp [create, Socket.open_given, SocketType.nc_type, Socket.bind, hallocated, hgranted,
      is_failed_lwip_err_to_ret hbind]

end TcpServer

end kfw.net
