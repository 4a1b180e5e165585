import Kfw.Lib.Ownership
import Kfw.Lib.Run
import Kfw.Net.Socket

open exec Result

namespace kfw.net

/-- A netconn, by the number of those obtained before it. -/
abbrev socket_handle_t := Nat

inductive SocketType where
  | kRAW
  | kUDP
  | kTCP
  | other (value : Int)

inductive NetconnType where
  | NETCONN_RAW
  | NETCONN_UDP
  | NETCONN_TCP

/-- The switch of `open`. -/
def SocketType.nc_type : SocketType → Option NetconnType
  | .kRAW => some .NETCONN_RAW
  | .kUDP => some .NETCONN_UDP
  | .kTCP => some .NETCONN_TCP
  | .other _ => none

/-- `netconn_new`, which gives a new netconn or null. -/
def netconn_new (netconns : Resources) (_nc_type : NetconnType) (granted : Bool) :
    Option socket_handle_t × Resources :=
  if granted then (some netconns.obtained, netconns.obtain) else (none, netconns)

/-- `netconn_accept`, which answers `err` and, if that is no error, gives a new
netconn. -/
def netconn_accept (netconns : Resources) (err : Int) : socket_handle_t × Resources :=
  (netconns.obtained, if err = ERR_OK then netconns.obtain else netconns)

namespace Socket

variable (allocator : Allocator) (self : Socket socket_handle_t) (netconns : Resources) (heap : Heap)

/-- `open`, where `granted` is whether `netconn_new` gives a netconn if it is
called. -/
def open_ (socket_type : SocketType) (granted : Bool) :
    ret_t × Socket socket_handle_t × Resources × Heap :=
  if self.m_context.isSome then (kEInvalidOperation, self, netconns, heap)
  else
    match socket_type.nc_type with
    | none => (kEArgument, self, netconns, heap)
    | some nc_type =>
      match heap.new_chars allocator sizeof_SocketContext with
      | (none, heap) => (kEOutOfMemory, self, netconns, heap)
      | (some _, heap) =>
        match netconn_new netconns nc_type granted with
        | (none, netconns) => (kEResource, self, netconns, heap)
        | (some handle, netconns) => (kOk, { m_context := some handle }, netconns, heap)

/-- `close`, with the netconn it deletes. -/
def close_netconn : Socket socket_handle_t × Resources :=
  match self.m_context with
  | none => (self, netconns)
  | some handle => ({ m_context := none }, netconns.delete handle)

/-- `accept`, with the netconn it obtains; `err` is what `netconn_accept` answers
if it is called. -/
def accept_netconn (socket : Socket socket_handle_t) (err : Int) :
    ret_t × Socket socket_handle_t × Resources × Heap :=
  if self.m_context.isNone then (kEDisposed, socket, netconns, heap)
  else if socket.m_context.isSome then (kEArgument, socket, netconns, heap)
  else
    match heap.new_chars allocator sizeof_SocketContext with
    | (none, heap) => (kEOutOfMemory, socket, netconns, heap)
    | (some _, heap) =>
      let (accepted_socket, netconns) := netconn_accept netconns err
      if err ≠ ERR_OK then (lwip_err_to_ret err, socket, netconns, heap)
      else (kOk, { m_context := some accepted_socket }, netconns, heap)

variable {allocator self netconns heap}

/-- Apart from the netconns, this is the `accept` of any connection. -/
theorem accept_netconn_eq (socket : Socket socket_handle_t) (err : Int) :
    let (r, accepted, _, nextHeap) := accept_netconn allocator self netconns heap socket err
    (r, accepted, nextHeap) =
      accept allocator { m_context := self.m_context.map fun _ => () } heap socket (err, netconns.obtained) := by
  cases hself : self.m_context with
  | none => simp [accept_netconn, accept, hself]
  | some listening =>
    cases hsocket : socket.m_context with
    | some handle => simp [accept_netconn, accept, hself, hsocket]
    | none =>
      rcases hnew : heap.new_chars allocator sizeof_SocketContext with ⟨_ | chars, nextHeap⟩
      · simp [accept_netconn, accept, hself, hsocket, hnew]
      · by_cases herr : err = ERR_OK
        · simp [accept_netconn, accept, hself, hsocket, hnew, netconn_accept, herr]
        · simp [accept_netconn, accept, hself, hsocket, hnew, herr]

/-- What became of a socket that a call should open: the call failed, and nothing
changed, or the socket has a new netconn. -/
def Opened (socket : Socket socket_handle_t) (netconns : Resources) :
    ret_t × Socket socket_handle_t × Resources × Heap → Prop
  | (r, next, nextNetconns, _) =>
    is_failed r = true ∧ next = socket ∧ nextNetconns = netconns ∨
      r = kOk ∧ socket.m_context = none ∧ next.m_context = some netconns.obtained ∧ nextNetconns = netconns.obtain

theorem opened_open (socket_type : SocketType) (granted : Bool) :
    Opened self netconns (open_ allocator self netconns heap socket_type granted) := by
  cases hself : self.m_context with
  | some handle => simp [Opened, open_, hself, show is_failed kEInvalidOperation = true from rfl]
  | none =>
    cases htype : socket_type.nc_type with
    | none => simp [Opened, open_, hself, htype, show is_failed kEArgument = true from rfl]
    | some nc_type =>
      rcases hnew : heap.new_chars allocator sizeof_SocketContext with ⟨_ | chars, nextHeap⟩
      · simp [Opened, open_, hself, htype, hnew, show is_failed kEOutOfMemory = true from rfl]
      · cases granted with
        | false =>
          simp [Opened, open_, hself, htype, hnew, netconn_new, show is_failed kEResource = true from rfl]
        | true => simp [Opened, open_, hself, htype, hnew, netconn_new]

theorem opened_accept_netconn (socket : Socket socket_handle_t) (err : Int) :
    Opened socket netconns (accept_netconn allocator self netconns heap socket err) := by
  cases hself : self.m_context with
  | none => simp [Opened, accept_netconn, hself, show is_failed kEDisposed = true from rfl]
  | some listening =>
    cases hsocket : socket.m_context with
    | some handle => simp [Opened, accept_netconn, hself, hsocket, show is_failed kEArgument = true from rfl]
    | none =>
      rcases hnew : heap.new_chars allocator sizeof_SocketContext with ⟨_ | chars, nextHeap⟩
      · simp [Opened, accept_netconn, hself, hsocket, hnew, show is_failed kEOutOfMemory = true from rfl]
      · by_cases herr : err = ERR_OK
        · simp [Opened, accept_netconn, hself, hsocket, hnew, netconn_accept, herr]
        · simp [Opened, accept_netconn, hself, hsocket, hnew, netconn_accept, herr,
            is_failed_lwip_err_to_ret herr]

end Socket

/-- All `Socket` objects that are alive, the netconns and the heap. -/
structure Sockets (V : Type) where
  sockets : V → Option (Socket socket_handle_t)
  netconns : Resources
  heap : Heap

/-- The operations on sockets, with the answers of lwIP. -/
inductive SocketOp (V : Type) where
  | construct (v : V)
  | construct_move (v obj : V)
  | open_ (v : V) (socket_type : SocketType) (granted : Bool)
  | accept (v socket : V) (err : Int)
  | close (v : V)
  | assign_move (v obj : V)
  | destroy (v : V)

namespace Sockets

variable {V : Type}

/-- A socket that is alive. -/
def get (sockets : Sockets V) (v : V) : Socket socket_handle_t := (sockets.sockets v).getD {}

/-- The netconn that each socket owns. -/
def owner (sockets : Sockets V) (v : V) : Option socket_handle_t := (sockets.get v).m_context

theorem owner_of_dead {sockets : Sockets V} {v : V} (hv : sockets.sockets v = none) : sockets.owner v = none := by
  rw [owner, get, hv, Option.getD_none]

variable [DecidableEq V]

def set (sockets : Sockets V) (v : V) (socket : Socket socket_handle_t) : Sockets V :=
  { sockets with sockets := Function.update sockets.sockets v (some socket) }

/-- `close` of one socket. -/
def close (sockets : Sockets V) (v : V) : Sockets V :=
  let (socket, netconns) := (sockets.get v).close_netconn sockets.netconns
  { sockets.set v socket with netconns }

/-- `m_context = obj.m_context; obj.m_context = nullptr;` -/
def move (sockets : Sockets V) (v obj : V) : Sockets V := (sockets.set v (sockets.get obj)).set obj {}

/-- An operation on sockets that are alive, with its return code. -/
def perform (allocator : Allocator) (sockets : Sockets V) : SocketOp V → ret_t × Sockets V
  | .construct v => (kOk, sockets.set v {})
  | .construct_move v obj => (kOk, sockets.move v obj)
  | .open_ v socket_type granted =>
    let (r, socket, netconns, heap) :=
      (sockets.get v).open_ allocator sockets.netconns sockets.heap socket_type granted
    (r, { sockets.set v socket with netconns, heap })
  | .accept v socket err =>
    let (r, accepted, netconns, heap) :=
      (sockets.get v).accept_netconn allocator sockets.netconns sockets.heap (sockets.get socket) err
    (r, { sockets.set socket accepted with netconns, heap })
  | .close v => (kOk, sockets.close v)
  | .assign_move v obj => (kOk, (sockets.close v).move v obj)
  | .destroy v => (kOk, { sockets.close v with
      sockets := Function.update (sockets.close v).sockets v none })

def step (allocator : Allocator) (sockets : Sockets V) (op : SocketOp V) : Exec (Sockets V) :=
  ok (sockets.perform allocator op).2

/-- What a program may do: construct sockets that are not alive, and use those
that are. -/
def Legal (sockets : Sockets V) : SocketOp V → Prop
  | .construct v => sockets.sockets v = none
  | .construct_move v obj => sockets.sockets v = none ∧ sockets.sockets obj ≠ none
  | .open_ v _ _ => sockets.sockets v ≠ none
  | .accept v socket _ => sockets.sockets v ≠ none ∧ sockets.sockets socket ≠ none
  | .close v => sockets.sockets v ≠ none
  | .assign_move v obj => sockets.sockets v ≠ none ∧ sockets.sockets obj ≠ none
  | .destroy v => sockets.sockets v ≠ none

/-- A call that fails leaves all sockets and netconns as they were. -/
def FailsUnchanged (allocator : Allocator) (sockets : Sockets V) (op : SocketOp V) : Prop :=
  is_failed (sockets.perform allocator op).1 = true →
    (sockets.perform allocator op).2.sockets = sockets.sockets ∧
      (sockets.perform allocator op).2.netconns = sockets.netconns

variable {sockets : Sockets V} {v obj : V}

theorem owner_update (sockets : Sockets V) (v : V) (socket : Option (Socket socket_handle_t))
    (netconns : Resources) (heap : Heap) :
    ({ sockets := Function.update sockets.sockets v socket, netconns, heap } : Sockets V).owner =
      Function.update sockets.owner v (socket.getD {}).m_context := by
  funext other
  by_cases hother : other = v
  · simp [owner, get, hother]
  · simp [owner, get, Function.update_of_ne hother]

theorem owner_set (sockets : Sockets V) (v : V) (socket : Socket socket_handle_t) :
    (sockets.set v socket).owner = Function.update sockets.owner v socket.m_context :=
  owner_update sockets v (some socket) sockets.netconns sockets.heap

/-- The netconns are accounted for by the sockets that own them. -/
def Accounted (sockets : Sockets V) : Prop := Owned sockets.owner sockets.netconns

theorem Accounted.move (h : sockets.Accounted) (hv : sockets.owner v = none) : (sockets.move v obj).Accounted := by
  unfold Accounted
  rw [Sockets.move, owner_set, owner_set]
  exact Owned.move h hv

theorem Accounted.close (h : sockets.Accounted) (v : V) :
    (sockets.close v).Accounted ∧ (sockets.close v).owner v = none := by
  cases hcontext : (sockets.get v).m_context with
  | none =>
    have hclose : sockets.close v = sockets.set v (sockets.get v) := by
      simp [Sockets.close, Socket.close_netconn, hcontext, set]
    have howner : (sockets.close v).owner = sockets.owner := by
      rw [hclose, owner_set]
      exact Function.update_eq_self v sockets.owner
    refine ⟨?_, by rw [howner, owner, hcontext]⟩
    rw [Accounted, howner, hclose]
    exact h
  | some handle =>
    have hclose : sockets.close v = {
        sockets.set v {} with netconns := sockets.netconns.delete handle } := by
      simp [Sockets.close, Socket.close_netconn, hcontext]
    have howner : (sockets.close v).owner = Function.update sockets.owner v none := by
      rw [hclose]
      exact owner_set sockets v {}
    refine ⟨?_, by rw [howner, Function.update_self]⟩
    rw [Accounted, howner, hclose]
    exact Owned.delete h hcontext

/-- A socket that a call should open. -/
theorem Accounted.opened (h : sockets.Accounted) (hv : sockets.sockets v ≠ none)
    {result : ret_t × Socket socket_handle_t × Resources × Heap}
    (hopened : Socket.Opened (sockets.get v) sockets.netconns result) :
    ({ sockets.set v result.2.1 with netconns := result.2.2.1, heap := result.2.2.2 } : Sockets V).Accounted ∧
      (is_failed result.1 = true → (sockets.set v result.2.1).sockets = sockets.sockets ∧
        result.2.2.1 = sockets.netconns) := by
  obtain ⟨r, socket, netconns, heap⟩ := result
  have howner : ({ sockets.set v socket with netconns, heap } : Sockets V).owner =
      Function.update sockets.owner v socket.m_context := owner_set sockets v socket
  rcases hopened with ⟨_, rfl, rfl⟩ | ⟨rfl, hclosed, hsocket, rfl⟩
  · constructor
    · rw [Accounted, howner]
      exact (Function.update_eq_self v sockets.owner).symm ▸ h
    · intro _
      obtain ⟨socket, hsocket⟩ := Option.ne_none_iff_exists'.mp hv
      have hget : some (sockets.get v) = sockets.sockets v := by rw [get, hsocket, Option.getD_some]
      refine ⟨?_, rfl⟩
      rw [set, hget]
      exact Function.update_eq_self v sockets.sockets
  · constructor
    · rw [Accounted, howner, hsocket]
      exact Owned.obtain h hclosed
    · simp

/-- An operation keeps the account, and changes nothing if it fails. -/
theorem Accounted.perform (h : sockets.Accounted) (allocator : Allocator) {op : SocketOp V}
    (hlegal : sockets.Legal op) :
    (sockets.perform allocator op).2.Accounted ∧ sockets.FailsUnchanged allocator op := by
  cases op with
  | construct v =>
    refine ⟨?_, by simp [FailsUnchanged, Sockets.perform]⟩
    rw [Accounted, Sockets.perform, owner_set, ← owner_of_dead hlegal, Function.update_eq_self]
    exact h
  | construct_move v obj =>
    exact ⟨h.move (owner_of_dead hlegal.1), by simp [FailsUnchanged, Sockets.perform]⟩
  | open_ v socket_type granted => exact h.opened hlegal (Socket.opened_open socket_type granted)
  | accept v socket err => exact h.opened hlegal.2 (Socket.opened_accept_netconn (sockets.get socket) err)
  | close v => exact ⟨(h.close v).1, by simp [FailsUnchanged, Sockets.perform]⟩
  | assign_move v obj =>
    exact ⟨(h.close v).1.move (h.close v).2, by simp [FailsUnchanged, Sockets.perform]⟩
  | destroy v =>
    refine ⟨?_, by simp [FailsUnchanged, Sockets.perform]⟩
    obtain ⟨hclosed, hnone⟩ := h.close v
    rw [Accounted, Sockets.perform, owner_update, Option.getD_none, ← hnone, Function.update_eq_self]
    exact hclosed

/-- No socket is alive, and no netconn was obtained. -/
def none_alive : Sockets V where
  sockets _ := none
  netconns := {}
  heap := Heap.empty

end Sockets

/-- Over every legal sequence of operations, whatever lwIP and the allocator
answer, each netconn has one owner and is not deleted, or has none and was
deleted once; and a call that fails changes nothing. -/
theorem netconns_owned {V : Type} [DecidableEq V] (allocator : Allocator) {ops : List (SocketOp V)}
    (hlegal : Along (Sockets.step allocator) Sockets.Legal .none_alive ops) :
    Always (Sockets.step allocator) Sockets.Accounted .none_alive ops ∧
      Along (Sockets.step allocator) (Sockets.FailsUnchanged allocator) .none_alive ops := by
  have hstep : ∀ (sockets : Sockets V) op next, sockets.Accounted → sockets.Legal op →
      sockets.step allocator op = ok next → next.Accounted := by
    intro sockets op next h hop hnext
    cases hnext
    exact (h.perform allocator hop).1
  refine ⟨hlegal.always Sockets.Accounted hstep Owned.start, ?_⟩
  exact hlegal.imp_of_invariant Sockets.Accounted (fun sockets op h hop => (h.perform allocator hop).2) hstep
    Owned.start

/-- A listening socket accepts a connection, which is moved onto itself and so
closed; then a second `accept` fails. -/
theorem netconns_owned_self_move :
    Always (Sockets.step (.bump id)) Sockets.Accounted (.none_alive : Sockets Bool)
        [.construct true, .construct false, .open_ true .kTCP true, .accept true false ERR_OK,
          .assign_move false false, .accept true false (-3)] ∧
      Along (Sockets.step (.bump id)) (Sockets.FailsUnchanged (.bump id)) (.none_alive : Sockets Bool)
        [.construct true, .construct false, .open_ true .kTCP true, .accept true false ERR_OK,
          .assign_move false false, .accept true false (-3)] := by
  refine netconns_owned (.bump id) ?_
  simp [Along, Sockets.step, Sockets.Legal, Sockets.perform, Sockets.set, Sockets.close, Sockets.move,
    Sockets.none_alive]

end kfw.net
