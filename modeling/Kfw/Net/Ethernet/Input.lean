import Kfw.Net.Ethernet.Dma

open exec Result

namespace kfw.net

def ETH_RX_BUF_SIZE : Nat := ETH_MAX_PACKET_SIZE
def ETH_RXBUFNB : Nat := 5

def PBUF_POOL_BUFSIZE : Nat := 1524

/-- A receive descriptor with its buffer: the bits of `Status` that are read or changed, with
the frame length that is valid in the last descriptor of a frame. -/
structure RxDesc where
  own : Bool := true
  fs : Bool := false
  ls : Bool := false
  fl : Nat := 0
  buffer : DmaBuffer

namespace RxDesc

def next (i : Nat) : Nat := next_desc ETH_RXBUFNB i

/-- `memcpy` from the buffer of a descriptor. While the DMA owns it, it may be writing there. -/
def memcpy (desc : RxDesc) (offset size : Nat) : Exec (List UInt8) :=
  if desc.own then fail .invalid_access else desc.buffer.get offset size

end RxDesc

/-- The lengths in the chain of `pbuf_alloc(PBUF_RAW, length, PBUF_POOL)`, when the pool has
`pool` buffers left. -/
def pbuf_alloc : Nat → Nat → Option (List Nat)
  | 0, _ => none
  | pool + 1, rem_len =>
    let len := min rem_len PBUF_POOL_BUFSIZE
    if rem_len - len > 0 then (pbuf_alloc pool (rem_len - len)).map (len :: ·) else some [len]

/-- Where a call of `low_level_input` stands. -/
inductive ReceivePc where
  | idle
  /-- in the loop of `HAL_ETH_GetReceivedFrame_IT` -/
  | scan (descriptorscancounter : Nat)
  /-- before `pbuf_alloc` -/
  | alloc
  /-- at the head of the loop over the chain, with the lengths of the buffers still to come -/
  | pbuf (q : List Nat)
  /-- in the loop of one buffer -/
  | copy (byteslefttocopy : Nat) (q : List Nat)
  /-- in the loop that gives the descriptors back -/
  | release (i : Nat)
  deriving DecidableEq

/-- The receiving side of the driver with its DMA, and a call of `low_level_input` with its
locals. -/
structure EthernetReceive where
  desc : Nat → RxDesc
  /-- `EthHandle.RxDesc` and `EthHandle.RxFrameInfos` -/
  RxDesc : Nat := 0
  FSRxDesc : Nat := 0
  SegCount : Nat := 0
  length : Nat := 0
  pc : ReceivePc := .idle
  dmarxdesc : Nat := 0
  bufferoffset : Nat := 0
  /-- the buffers of the chain `p` that are filled, and what the next one has so far -/
  p : Option (List (List UInt8)) := none
  payload : List UInt8 := []
  /-- the descriptor at which the DMA is, and the frame it is storing with the number of
  segments stored -/
  dma : Nat := 0
  storing : Option (List UInt8 × Nat) := none
  /-- the frames stored whole, each with its checksum -/
  received : List (List UInt8) := []
  /-- the frames fetched: what the pool had for each, and what was returned for it -/
  pool : Nat := 0
  fetched : List (Nat × Option (List (List UInt8))) := []

inductive ReceiveAction where
  /-- the next step of the task; `locked` is whether another task is in the HAL, and `pool`
  what is left in the pool of buffers -/
  | task (locked : Bool) (pool : Nat)
  /-- the next step of the DMA, with the frame that comes if none is being stored; `fl` is
  what the field of the length gets where it is not valid -/
  | dma (frame : List UInt8) (fl : Nat)

namespace EthernetReceive

/-- One step of `low_level_input`: a descriptor looked at, an allocation, a copy or a
descriptor given back. -/
def task (eth : EthernetReceive) (locked : Bool) (pool : Nat) : Exec EthernetReceive :=
  match eth.pc with
  | .idle => if locked then ok eth else ok { eth with pc := .scan 0 }
  | .scan descriptorscancounter =>
    let desc := eth.desc eth.RxDesc
    if desc.own = false ∧ descriptorscancounter < ETH_RXBUFNB then
      if desc.fs ∧ ¬ desc.ls then ok { eth with
        FSRxDesc := eth.RxDesc
        SegCount := 1
        RxDesc := RxDesc.next eth.RxDesc
        pc := .scan (descriptorscancounter + 1) }
      else if ¬ desc.ls ∧ ¬ desc.fs then ok { eth with
        SegCount := eth.SegCount + 1
        RxDesc := RxDesc.next eth.RxDesc
        pc := .scan (descriptorscancounter + 1) }
      else ok { eth with
        SegCount := eth.SegCount + 1
        FSRxDesc := if eth.SegCount + 1 = 1 then eth.RxDesc else eth.FSRxDesc
        length := (desc.fl + 2 ^ 32 - 4) % 2 ^ 32
        RxDesc := RxDesc.next eth.RxDesc
        pc := .alloc }
    else ok { eth with pc := .idle }
  | .alloc =>
    let len := eth.length % 2 ^ 16
    let eth := { eth with dmarxdesc := eth.FSRxDesc, bufferoffset := 0, pool }
    match if len > 0 then pbuf_alloc pool len else none with
    | some q => ok { eth with p := some [], pc := .pbuf q }
    | none => ok { eth with p := none, pc := .release 0 }
  | .pbuf [] => ok { eth with dmarxdesc := eth.FSRxDesc, pc := .release 0 }
  | .pbuf (len :: q) => ok { eth with payload := [], pc := .copy len q }
  | .copy byteslefttocopy q =>
    if byteslefttocopy + eth.bufferoffset > ETH_RX_BUF_SIZE then do
      let data ← (eth.desc eth.dmarxdesc).memcpy eth.bufferoffset (ETH_RX_BUF_SIZE - eth.bufferoffset)
      ok { eth with
        payload := eth.payload ++ data
        dmarxdesc := RxDesc.next eth.dmarxdesc
        pc := .copy (byteslefttocopy - (ETH_RX_BUF_SIZE - eth.bufferoffset)) q
        bufferoffset := 0 }
    else do
      let data ← (eth.desc eth.dmarxdesc).memcpy eth.bufferoffset byteslefttocopy
      ok { eth with
        p := eth.p.map (· ++ [eth.payload ++ data])
        pc := .pbuf q
        bufferoffset := eth.bufferoffset + byteslefttocopy }
  | .release i =>
    if i < eth.SegCount then ok { eth with
      desc := Function.update eth.desc eth.dmarxdesc { eth.desc eth.dmarxdesc with own := true }
      dmarxdesc := RxDesc.next eth.dmarxdesc
      pc := .release (i + 1) }
    else ok { eth with SegCount := 0, pc := .idle, fetched := eth.fetched ++ [(eth.pool, eth.p)] }

/-- A descriptor in which the DMA has stored the segment with number `i` of a frame. -/
def store_desc (desc : kfw.net.RxDesc) (frame : List UInt8) (i : Nat) (ls : Bool) (fl : Nat) : kfw.net.RxDesc where
  own := false
  fs := i = 0
  ls := ls
  fl := fl % 2 ^ 14
  buffer := desc.buffer.store (piece ETH_RX_BUF_SIZE i frame) (length_piece_le _ _ _)

/-- The DMA stores the next segment of a frame in the descriptor it is at, if it owns it, and
gives the descriptor to the driver. When it does not own the descriptor behind it and needs
it, it closes the frame here and drops the rest. -/
def dma_step (eth : EthernetReceive) (frame : List UInt8) (fl : Nat) : EthernetReceive :=
  let (frame, i) := eth.storing.getD (frame, 0)
  if (eth.desc eth.dma).own then
    let last := decide (frame.length ≤ ETH_RX_BUF_SIZE * (i + 1))
    let cut := !last && !(eth.desc (RxDesc.next eth.dma)).own
    { eth with
      desc := Function.update eth.desc eth.dma
        (store_desc (eth.desc eth.dma) frame i (last || cut) (if last then frame.length else fl))
      dma := RxDesc.next eth.dma
      storing := if last || cut then none else some (frame, i + 1)
      received := if last then eth.received ++ [frame] else eth.received }
  else eth

def step (eth : EthernetReceive) : ReceiveAction → Exec EthernetReceive
  | .task locked pool => eth.task locked pool
  | .dma frame fl => ok (eth.dma_step frame fl)

/-- The driver after `HAL_ETH_DMARxDescListInit`, with anything in its buffers. -/
def init (Rx_Buff : Nat → DmaBuffer) : EthernetReceive := { desc := fun i => { buffer := Rx_Buff i } }

end EthernetReceive

end kfw.net
