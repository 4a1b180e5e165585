import Kfw.Net.Memp.Preemption
import Kfw.Net.Socket
import Kfw.Rtos.Semaphore

open exec Result kfw.rtos

namespace kfw.net

def ERR_MEM : Int := -1

def archMESG_QUEUE_LENGTH : Nat := 6

def MEMP_NUM_TCPIP_MSG_INPKT : Nat := 8

def TCPIP_MSG_INPKT : Nat := 2

section mailbox

variable {Msg : Type}

/-- `sys_mbox_new` creates a queue of the same size, whatever it was asked for. -/
def sys_mbox_trypost [Itron] (mbox : List Msg) (msg : Msg) : Int × List Msg :=
  let (er, mbox) := Itron.psnd_dtq archMESG_QUEUE_LENGTH mbox msg E_OK
  (if er = E_OK then ERR_OK else ERR_MEM, mbox)

end mailbox

/-- A message to `tcpip_thread`: a packet, in an element of the pool `MEMP_TCPIP_MSG_INPKT`, or
one of the others, which call a function. -/
inductive TcpipMsg where
  | inpkt (msg : Addr)
  | callback

/-- The tasks that use the pool. -/
inductive TcpipTask where
  /-- `ethernetif_input` -/
  | input
  /-- `tcpip_thread` -/
  | thread
  deriving DecidableEq

/-- Where the task `ethernetif_input` stands with a packet. -/
inductive InpktPc (Pbuf : Type) where
  /-- in `low_level_input`, or waiting for a frame -/
  | idle
  /-- in `memp_malloc`, called by `tcpip_inpkt` -/
  | malloc (p : Pbuf)
  /-- before the fields of the message are written -/
  | fill (p : Pbuf) (msg : Addr)
  /-- before `sys_mbox_trypost` -/
  | post (p : Pbuf) (msg : Addr)
  /-- in `memp_free` of a message that could not be posted -/
  | undo (p : Pbuf) (msg : Addr)
  /-- `netif->input` has failed -/
  | pbuf_free (p : Pbuf)

/-- Where `tcpip_thread` stands. -/
inductive TcpipPc where
  | fetch
  /-- before `LOCK_TCPIP_CORE` -/
  | lock (msg : TcpipMsg)
  /-- before `input_fn` -/
  | input (msg : Addr)
  /-- in `memp_free` of the message -/
  | free (msg : Addr)

/-- The way of packets from the driver to the core: the pool of messages, with the accesses
to it that the two tasks have made, the packet in each message, the mailbox, and the tasks. -/
structure TcpipInput (Pbuf : Type) where
  memp : MempTasks TcpipTask
  /-- `msg->msg.inp.p` -/
  inp : Addr → Option Pbuf := fun _ => none
  mbox : List TcpipMsg := []
  task : InpktPc Pbuf := .idle
  thread : TcpipPc := .fetch
  /-- the calls of `netif->input` that are over, with their answers -/
  calls : List (Pbuf × Int) := []
  /-- the packets that the task has freed -/
  freed : List Pbuf := []
  /-- the packets that `ethernet_input` was called with -/
  handled : List Pbuf := []

inductive TcpipAction (Pbuf : Type) where
  /-- the next step of `ethernetif_input`; `p` is what `low_level_input` returns where it is called -/
  | task (p : Option Pbuf)
  /-- the next step of `tcpip_thread`; `locked` is whether another task is in the core -/
  | thread (locked : Bool)
  /-- another task posts a message of another kind -/
  | callback

namespace TcpipInput

variable {Pbuf : Type}

/-- `netif->input` returns. -/
def return_ (tcpip : TcpipInput Pbuf) (p : Pbuf) (err : Int) : TcpipInput Pbuf :=
  { tcpip with
    task := if err = ERR_OK then .idle else .pbuf_free p
    calls := tcpip.calls ++ [(p, err)] }

/-- One step of `ethernetif_input` with `tcpip_inpkt`. -/
def task_step [Itron] (tcpip : TcpipInput Pbuf) (p : Option Pbuf) : TcpipInput Pbuf :=
  match tcpip.task with
  | .idle =>
    match p with
    | none => tcpip
    | some p => { tcpip with task := .malloc p }
  | .malloc p =>
    match tcpip.memp.memp_malloc .input with
    | (none, memp) => { tcpip with memp }
    | (some msg, memp) =>
      if msg = nullptr then { tcpip with memp }.return_ p ERR_MEM else { tcpip with memp, task := .fill p msg }
  | .fill p msg =>
    -- `type` is the first word of a message
    { tcpip with
      memp.pool.next := Function.update tcpip.memp.pool.next msg TCPIP_MSG_INPKT
      inp := Function.update tcpip.inp msg (some p)
      task := .post p msg }
  | .post p msg =>
    let (err, mbox) := sys_mbox_trypost tcpip.mbox (.inpkt msg)
    if err ≠ ERR_OK then { tcpip with mbox, task := .undo p msg } else { tcpip with mbox }.return_ p ERR_OK
  | .undo p msg =>
    let (returned, memp) := tcpip.memp.memp_free .input msg
    if returned then { tcpip with memp }.return_ p ERR_MEM else { tcpip with memp }
  | .pbuf_free p => { tcpip with task := .idle, freed := tcpip.freed ++ [p] }

/-- One step of `tcpip_thread`. A message without a packet in it must not be looked at. -/
def thread_step (tcpip : TcpipInput Pbuf) (locked : Bool) : Exec (TcpipInput Pbuf) :=
  match tcpip.thread with
  | .fetch =>
    match tcpip.mbox with
    | [] => ok tcpip
    | msg :: mbox => ok { tcpip with mbox, thread := .lock msg }
  | .lock msg =>
    if locked then ok tcpip
    else
      match msg with
      | .inpkt msg => ok { tcpip with thread := .input msg }
      | .callback => ok { tcpip with thread := .fetch }
  | .input msg =>
    match tcpip.inp msg with
    | none => fail .invalid_access
    | some p => ok { tcpip with handled := tcpip.handled ++ [p], thread := .free msg }
  | .free msg =>
    let (returned, memp) := tcpip.memp.memp_free .thread msg
    ok (if returned then { tcpip with memp, thread := .fetch } else { tcpip with memp })

def step [Itron] (tcpip : TcpipInput Pbuf) : TcpipAction Pbuf → Exec (TcpipInput Pbuf)
  | .task p => ok (tcpip.task_step p)
  | .thread locked => tcpip.thread_step locked
  | .callback => ok { tcpip with mbox := (sys_mbox_trypost tcpip.mbox .callback).2 }

/-- After `memp_init` and `tcpip_init`, with the messages of the pool at `base`. -/
def init (size : Nat) (base : Addr) (next : Addr → Addr) : TcpipInput Pbuf :=
  { memp := .start MEMP_NUM_TCPIP_MSG_INPKT size base next }

/-- What a step writes to the pool rests on what its task has read there still being so. -/
def Current (tcpip : TcpipInput Pbuf) : TcpipAction Pbuf → Prop
  | .task _ => tcpip.memp.Current (.next .input)
  | .thread _ => tcpip.memp.Current (.next .thread)
  | .callback => True

/-- The packets that `tcpip_inpkt` has taken. -/
def accepted (tcpip : TcpipInput Pbuf) : List Pbuf := (tcpip.calls.filter fun call => call.2 = ERR_OK).map Prod.fst

def refused (tcpip : TcpipInput Pbuf) : List Pbuf := (tcpip.calls.filter fun call => call.2 ≠ ERR_OK).map Prod.fst

end TcpipInput

end kfw.net
