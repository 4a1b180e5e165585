import Kfw.Net.Ethernet.Dma

open exec Result

namespace kfw.net

def ERR_USE : Int := -8

def ETH_TX_BUF_SIZE : Nat := ETH_MAX_PACKET_SIZE
def ETH_TXBUFNB : Nat := 5

/-- The bits of `ETH_DMATXDESC_TBS1`, the size of a descriptor's first buffer. -/
def tbs1_of (size : Nat) : Nat := size &&& 0x1FFF

/-- A transmit descriptor with its buffer: the bits of `Status` that are read or changed,
and the size in `ControlBufferSize`. -/
structure TxDesc where
  own : Bool := false
  fs : Bool := false
  ls : Bool := false
  tbs1 : Nat := 0
  buffer : DmaBuffer

namespace TxDesc

def next (i : Nat) : Nat := next_desc ETH_TXBUFNB i

/-- `memcpy` into the buffer of a descriptor. While the DMA owns it, it may be reading there. -/
def memcpy (desc : TxDesc) (offset : Nat) (data : List UInt8) : Exec TxDesc :=
  if desc.own then fail .invalid_access
  else do
    let buffer ← desc.buffer.put offset data
    ok { desc with buffer }

end TxDesc

/-- Where a call of `low_level_output` stands; `q` are the buffers of the chain still to come. -/
inductive OutputPc where
  | idle
  /-- at the head of the loop over the chain -/
  | pbuf (q : List (List UInt8))
  /-- in the loop of one buffer, of which `rest` is left to copy -/
  | copy (rest : List UInt8) (q : List (List UInt8))
  /-- before `HAL_ETH_TransmitFrame` -/
  | transmit
  /-- in the loop of `HAL_ETH_TransmitFrame` over the descriptors -/
  | give (i bufcount : Nat)
  deriving DecidableEq

/-- The transmitting side of the driver with its DMA, and a call of `low_level_output` with
its locals. -/
structure EthernetOutput where
  desc : Nat → TxDesc
  /-- `EthHandle.TxDesc` -/
  TxDesc : Nat := 0
  pc : OutputPc := .idle
  DmaTxDesc : Nat := 0
  bufferoffset : Nat := 0
  framelength : Nat := 0
  /-- the descriptor at which the DMA is, and what it has sent of a frame -/
  dma : Nat := 0
  sending : List UInt8 := []
  /-- the frames on the wire -/
  wire : List (List UInt8) := []
  /-- what the current call is given to send, and the calls before with their answers -/
  frame : List UInt8 := []
  calls : List (List UInt8 × Int) := []

inductive OutputAction where
  /-- the next step of the task that sends; between two calls it starts one with the chain `p` -/
  | task (p : List (List UInt8))
  /-- the next step of the DMA -/
  | dma

namespace EthernetOutput

/-- The number of descriptors that `HAL_ETH_TransmitFrame` needs. -/
def bufcount_of (FrameLength : Nat) : Nat :=
  if FrameLength > ETH_TX_BUF_SIZE then
    let bufcount := FrameLength / ETH_TX_BUF_SIZE
    if FrameLength % ETH_TX_BUF_SIZE ≠ 0 then bufcount + 1 else bufcount
  else 1

/-- The end of a call. -/
def return_ (eth : EthernetOutput) (errval : Int) : EthernetOutput :=
  { eth with pc := .idle, calls := eth.calls ++ [(eth.frame, errval)] }

/-- What `HAL_ETH_TransmitFrame` puts in the descriptor with number `i` of the frame. -/
def give_desc (desc : kfw.net.TxDesc) (FrameLength i bufcount : Nat) : kfw.net.TxDesc :=
  if bufcount = 1 then { desc with fs := true, ls := true, tbs1 := tbs1_of FrameLength, own := true }
  else if i = bufcount - 1 then
    { desc with
      fs := i = 0
      ls := true
      tbs1 := tbs1_of (FrameLength - (bufcount - 1) * ETH_TX_BUF_SIZE)
      own := true }
  else { desc with fs := i = 0, ls := false, tbs1 := tbs1_of ETH_TX_BUF_SIZE, own := true }

/-- One step of `low_level_output`: a check of an owner, a copy or a descriptor given to the
DMA. The answer of `HAL_ETH_TransmitFrame` is not looked at; that it is `HAL_BUSY`, with
nothing sent, because another task is in the HAL, is left out. -/
def task (eth : EthernetOutput) (p : List (List UInt8)) : Exec EthernetOutput :=
  match eth.pc with
  | .idle => ok { eth with
      pc := .pbuf p
      DmaTxDesc := eth.TxDesc
      bufferoffset := 0
      framelength := 0
      frame := p.flatten }
  | .pbuf [] => ok { eth with pc := .transmit }
  | .pbuf (payload :: q) =>
    if (eth.desc eth.DmaTxDesc).own then ok (eth.return_ ERR_USE) else ok { eth with pc := .copy payload q }
  | .copy rest q =>
    if rest.length + eth.bufferoffset > ETH_TX_BUF_SIZE then do
      let size := ETH_TX_BUF_SIZE - eth.bufferoffset
      let desc ← (eth.desc eth.DmaTxDesc).memcpy eth.bufferoffset (rest.take size)
      let eth := { eth with
        desc := Function.update eth.desc eth.DmaTxDesc desc
        DmaTxDesc := TxDesc.next eth.DmaTxDesc }
      if (eth.desc eth.DmaTxDesc).own then ok (eth.return_ ERR_USE)
      else ok { eth with
        pc := .copy (rest.drop size) q
        framelength := eth.framelength + size
        bufferoffset := 0 }
    else do
      let desc ← (eth.desc eth.DmaTxDesc).memcpy eth.bufferoffset rest
      ok { eth with
        desc := Function.update eth.desc eth.DmaTxDesc desc
        pc := .pbuf q
        bufferoffset := eth.bufferoffset + rest.length
        framelength := eth.framelength + rest.length }
  | .transmit =>
    if eth.framelength = 0 then ok (eth.return_ ERR_OK)
    else if (eth.desc eth.TxDesc).own then ok (eth.return_ ERR_OK)
    else ok { eth with pc := .give 0 (bufcount_of eth.framelength) }
  | .give i bufcount =>
    let eth := { eth with
      desc := Function.update eth.desc eth.TxDesc
        (give_desc (eth.desc eth.TxDesc) eth.framelength i bufcount)
      TxDesc := TxDesc.next eth.TxDesc }
    if i + 1 < bufcount then ok { eth with pc := .give (i + 1) bufcount } else ok (eth.return_ ERR_OK)

/-- The DMA sends the buffer of the descriptor it is at, if it owns it, gives the descriptor
back and goes to the next. At a descriptor that it does not own it suspends until the driver
has cleared `TBUS` or `TUS` and written a poll demand; here it looks again by itself. -/
def dma_step (eth : EthernetOutput) : EthernetOutput :=
  let desc := eth.desc eth.dma
  if desc.own then
    let sending := (if desc.fs then [] else eth.sending) ++ desc.buffer.bytes.take desc.tbs1
    { eth with
      desc := Function.update eth.desc eth.dma { desc with own := false }
      dma := TxDesc.next eth.dma
      sending := if desc.ls then [] else sending
      wire := if desc.ls then eth.wire ++ [sending] else eth.wire }
  else eth

def step (eth : EthernetOutput) : OutputAction → Exec EthernetOutput
  | .task p => eth.task p
  | .dma => ok eth.dma_step

/-- The driver after `HAL_ETH_DMATxDescListInit`, with anything in its buffers. -/
def init (Tx_Buff : Nat → DmaBuffer) : EthernetOutput := { desc := fun i => { buffer := Tx_Buff i } }

/-- The frames that the driver has taken: those of the calls that answered `ERR_OK` and had
something to send. -/
def accepted (eth : EthernetOutput) : List (List UInt8) :=
  (eth.calls.filter fun call => call.2 = ERR_OK ∧ call.1 ≠ []).map Prod.fst

end EthernetOutput

end kfw.net
