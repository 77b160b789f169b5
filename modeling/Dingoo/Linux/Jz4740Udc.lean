/-
The USB device controller driver, `drivers/usb/gadget/jz4740_udc.c`: the requests of the
gadget driver, from `jz4740_queue` to their completion.

The four endpoints are those of `udc_dev`: 0 is `ep0`, 1 is `ep1out-bulk`, 2 is
`ep1in-bulk` and 3 is `ep2in-int`.  A request is named by a number; a queue is the list of
the numbers linked on it.  Addresses, lengths and counts are 32 bits wide.

What a register read returns is not the driver's to decide: `reads` are the values of the
reads to come, in order, and 0 when there are no more.  The registers of the two DMA
channels are kept, because the driver computes with what it wrote to them.  The same goes
for the gadget driver: `callbacks` says, for each completion to come, which requests the
completion callback queues on its endpoint.

Left out: the index register, the interrupts of suspend and resume, the test mode of
`udc_debug`, the bytes of the data (`Linux/UdcFifo.lean` has them for IN packets), and the
`disconnect` callback.
-/
import Dingoo.Lib.StateRun
import Mathlib.Algebra.GroupWithZero.Nat

namespace Dingoo.Udc

abbrev EpId := Fin 4

/-- There are endpoints, so that a number names one. -/
scoped instance neZeroEps : NeZero 4 := ⟨by decide⟩

/-! ### State -/

inductive Chan where
  | dma1
  | dma2
deriving DecidableEq, Repr

/-- `enum ep0state`. -/
inductive Ep0State where
  | waitForSetup
  | dataStateXmit
  | dataStateNeedZlp
  | waitForOutStatus
  | dataStateRecv
deriving DecidableEq, Repr

/-- `struct usb_request`; `buf` is its physical address. -/
structure Request where
  length : BitVec 32
  actual : BitVec 32
  buf : BitVec 32
  zero : Bool
  status : Int
deriving DecidableEq, Repr

/-- What the gadget driver has filled in when it calls `jz4740_queue`; `valid` says that
the callback and the buffer are set. -/
structure Submission where
  req : Nat
  valid : Bool
  length : BitVec 32
  buf : BitVec 32
  zero : Bool
deriving DecidableEq, Repr

/-- `struct jz4740_ep`.  `desc` holds `wMaxPacketSize`, `isIn` and `index` are the two
parts of `bEndpointAddress`, `irq` is the bit of the endpoint in the enable register. -/
structure Endpoint where
  desc : Option Nat
  stopped : Bool
  isIn : Bool
  index : Nat
  maxpacket : Nat
  queue : List Nat
  regAddr : Option Chan
  irq : Bool
deriving DecidableEq, Repr

/-- The registers of a DMA channel: `ADDR`, `COUNT`, the endpoint in `CNTL`, and whether a
transfer has been started that has neither ended nor been stopped. -/
structure Transfer where
  addr : BitVec 32
  count : BitVec 32
  ep : Nat
  running : Bool
deriving DecidableEq, Repr

/-- The requests taken and given back, in order. -/
inductive Entry where
  | accepted (e : EpId) (r : Nat)
  | completed (e : EpId) (r : Nat) (status : Int) (actual length : BitVec 32)
deriving DecidableEq, Repr

/-- What the driver does to the controller: packets put into a FIFO (`len` bytes of the
request from `off` on), packets marked as ready, and DMA transfers started. -/
inductive Wire where
  | data (e : EpId) (r : Nat) (off : BitVec 32) (len : Int)
  | inReady (e : EpId) (dataEnd : Bool)
  | kick (ch : Chan) (busy : Bool)
deriving DecidableEq, Repr

/-- `struct jz4740_udc`, the requests, the DMA channels, and what happened. -/
structure Dev where
  eps : EpId → Endpoint
  reqs : Nat → Request
  chans : Chan → Transfer
  ep0state : Ep0State
  address : Nat
  driver : Bool
  speedKnown : Bool
  useDma : Bool
  ledger : List Entry
  wire : List Wire
  reads : List (BitVec 32)
  callbacks : List (List Submission)

abbrev M := StateM Dev

def EINVAL : Int := 22
def EAGAIN : Int := 11
def EPROTO : Int := 71
def EOVERFLOW : Int := 75
def ECONNABORTED : Int := 103
def ECONNRESET : Int := 104
def ESHUTDOWN : Int := 108
def EINPROGRESS : Int := 115

def EP0_MAXPACKETSIZE : Nat := 64

def USB_CSR0_OUTPKTRDY : BitVec 32 := 0x01
def USB_CSR0_INPKTRDY : BitVec 32 := 0x02
def USB_CSR0_SENTSTALL : BitVec 32 := 0x04
def USB_CSR0_SETUPEND : BitVec 32 := 0x10
def USB_INCSR_FFNOTEMPT : BitVec 32 := 0x02
def USB_INCSR_SENTSTALL : BitVec 32 := 0x20
def USB_OUTCSR_OUTPKTRDY : BitVec 32 := 0x01
def USB_OUTCSR_SENTSTALL : BitVec 32 := 0x40

def USB_REQ_CLEAR_FEATURE : Nat := 1
def USB_REQ_SET_FEATURE : Nat := 3
def USB_REQ_SET_ADDRESS : Nat := 5
def USB_DIR_IN : Nat := 0x80
def USB_RECIP_ENDPOINT : Nat := 2

/-! ### Access -/

def Dev.setEp (s : Dev) (e : EpId) (f : Endpoint → Endpoint) : Dev :=
  { s with eps := fun i => if i = e then f (s.eps i) else s.eps i }

def Dev.setReq (s : Dev) (r : Nat) (f : Request → Request) : Dev :=
  { s with reqs := fun i => if i = r then f (s.reqs i) else s.reqs i }

def Dev.setChan (s : Dev) (ch : Chan) (f : Transfer → Transfer) : Dev :=
  { s with chans := fun i => if i = ch then f (s.chans i) else s.chans i }

def modifyEp (e : EpId) (f : Endpoint → Endpoint) : M Unit := modify fun s => s.setEp e f
def modifyReq (r : Nat) (f : Request → Request) : M Unit := modify fun s => s.setReq r f

/-- `usb_readb`, `usb_readw` of a register the controller changes. -/
def read : M (BitVec 32) := fun s => (s.reads.headD 0, { s with reads := s.reads.tail })

def emit (w : Wire) : M Unit := modify fun s => { s with wire := s.wire ++ [w] }

/-- `x` where `c` is set. -/
def when (c : Bool) (x : M Unit) : M Unit := if c then x else pure ()

/-- `usb_readl(ep->reg_addr)`; nothing is known of the read before the first `kick_dma`. -/
def readRegAddr (e : EpId) : M (BitVec 32) := do
  let s ← get
  match (s.eps e).regAddr with
  | some ch => pure (s.chans ch).addr
  | none => read

/-- `pio_irq_enable` and `pio_irq_disable`. -/
def pioIrqEnable (e : EpId) : M Unit := modifyEp e fun ep => { ep with irq := true }
def pioIrqDisable (e : EpId) : M Unit := modifyEp e fun ep => { ep with irq := false }

/-- The request at the head of the queue. -/
def head (e : EpId) : M (Option Nat) := do return ((← get).eps e).queue.head?

/-! ### Packets -/

/-- `min(length - actual, max)` in signed 32-bit arithmetic. -/
def packetLength (req : Request) (max : Int) : Int := min (req.length - req.actual).toInt max

/-- The count in `write_packet` and `read_packet`. -/
def takePacket (r : Nat) (max : Int) : M Int := do
  let len := packetLength ((← get).reqs r) max
  modifyReq r fun req => { req with actual := req.actual + BitVec.ofInt 32 len }
  pure len

/-- `write_packet`. -/
def writePacket (e : EpId) (r : Nat) (max : Int) : M Int := do
  emit (.data e r ((← get).reqs r).actual (packetLength ((← get).reqs r) max))
  takePacket r max

/-- `read_packet`. -/
def readPacket (r : Nat) (count : Int) : M Int := takePacket r count

/-- `kick_dma`. -/
def kickDma (e : EpId) (r : Nat) : M Unit := do
  let s ← get
  let ch := if (s.eps e).isIn then Chan.dma1 else Chan.dma2
  modifyEp e fun ep => { ep with regAddr := some ch, irq := true }
  emit (.kick ch (s.chans ch).running)
  modify fun s => s.setChan ch fun _ =>
    ⟨(s.reqs r).buf, (s.reqs r).length, (s.eps e).index, true⟩

/-! ### Taking and completing requests -/

/-- `!list_empty(&req->queue)`. -/
def Dev.linked (s : Dev) (r : Nat) : Bool := decide (∃ e, r ∈ (s.eps e).queue)

/-- The checks of `jz4740_queue`: 0 or the error. -/
def Dev.refusal (s : Dev) (e : EpId) (b : Submission) : Int :=
  if !b.valid || s.linked b.req then - EINVAL
  else if (s.eps e).desc.isNone && e ≠ 0 then - EINVAL
  else if !s.driver || !s.speedKnown then - ESHUTDOWN
  else 0

/-- The request is taken: its fields are set. -/
def accept (e : EpId) (b : Submission) : M Unit := modify fun s =>
  { s.setReq b.req fun _ => ⟨b.length, 0, b.buf, b.zero, - EINPROGRESS⟩ with
    ledger := s.ledger ++ [.accepted e b.req] }

/-- `list_add_tail(&req->queue, &ep->queue)`. -/
def addTail (e : EpId) (r : Nat) : M Unit :=
  modifyEp e fun ep => { ep with queue := ep.queue ++ [r] }

/-- `jz4740_queue` with a request it has taken: `start` is what it does to an idle endpoint,
`true` if the request is not to be linked any more. -/
def startOrLink (start : EpId → Nat → M Bool) (e : EpId) (r : Nat) : M Int := do
  let ep := (← get).eps e
  if ep.queue = [] && !ep.stopped then
    if ← start e r then pure 0
    else
      addTail e r
      pure 0
  else
    addTail e r
    pure 0

/-- `jz4740_queue`. -/
def queueWith (start : EpId → Nat → M Bool) (e : EpId) (b : Submission) : M Int := do
  let refusal := (← get).refusal e b
  if refusal ≠ 0 then pure refusal
  else
    accept e b
    startOrLink start e b.req

/-- The calls of `jz4740_queue` in a completion callback.  The endpoint is stopped, so
nothing is started. -/
def callbackQueues (e : EpId) : List Submission → M Unit
  | [] => pure ()
  | b :: bs => do
    let _ ← queueWith (fun _ _ => pure false) e b
    callbackQueues e bs

/-- `req.complete`. -/
def callback (e : EpId) : M Unit := do
  let bs := (← get).callbacks.headD []
  modify fun s => { s with callbacks := s.callbacks.tail }
  callbackQueues e bs

/-- The status a request is given back with. -/
def Request.finalStatus (req : Request) (status : Int) : Int :=
  if req.status = - EINPROGRESS then status else req.status

/-- `done` up to the callback. -/
def retire (e : EpId) (r : Nat) (status : Int) : M Unit := modify fun s =>
  let req := s.reqs r
  { (s.setEp e fun ep => { ep with queue := ep.queue.erase r, stopped := true }).setReq r
      fun req => { req with status := req.finalStatus status } with
    ledger := s.ledger ++ [.completed e r (req.finalStatus status) req.actual req.length] }

/-- `done`. -/
def done (e : EpId) (r : Nat) (status : Int) : M Unit := do
  let stopped := ((← get).eps e).stopped
  retire e r status
  callback e
  modifyEp e fun ep => { ep with stopped := stopped }

/-- The loop of `nuke`. -/
def nukeLoop (e : EpId) (status : Int) : Nat → M Unit
  | 0 => pure ()
  | n + 1 => do
    match ← head e with
    | none => pure ()
    | some r =>
      done e r status
      nukeLoop e status n

/-- The turns `nuke` can take: every request linked now or by a callback. -/
def Dev.backlog (s : Dev) (e : EpId) : Nat :=
  (s.eps e).queue.length + (s.callbacks.map List.length).sum

/-- `nuke`. -/
def nuke (e : EpId) (status : Int) : M Unit := do
  nukeLoop e status ((← get).backlog e)
  when ((← get).eps e).desc.isSome (pioIrqDisable e)

/-! ### FIFOs -/

/-- `pio_irq_disable` where the queue has become empty. -/
def pioIrqDisableIfEmpty (e : EpId) : M Unit := do
  when (((← get).eps e).queue = []) (pioIrqDisable e)

/-- The bytes a DMA transfer has moved, as `write_fifo` and `read_fifo` compute them. -/
def countDma (e : EpId) (r : Nat) : M (BitVec 32) := do
  let addr ← readRegAddr e
  let dmaCount := addr - ((← get).reqs r).buf
  modifyReq r fun req => { req with actual := req.actual + dmaCount }
  pure dmaCount

/-- `write_fifo` with DMA. -/
def writeFifoDma (e : EpId) (r : Nat) : M Int := do
  let dmaCount ← countDma e r
  when (dmaCount.toNat % ((← get).eps e).desc.getD 0 ≠ 0) (emit (.inReady e false))
  done e r 0
  match ← head e with
  | none =>
    pioIrqDisable e
    pure 1
  | some r' =>
    kickDma e r'
    pure 0

/-- The test for the last packet in `write_fifo` and `write_fifo_ep0`. -/
def isLast (req : Request) (count max : Int) : Bool :=
  count ≠ max || !(req.length ≠ req.actual || req.zero)

/-- `write_fifo` without DMA. -/
def writeFifoPio (e : EpId) (r : Nat) : M Int := do
  let max : Int := ((← get).eps e).desc.getD 0
  let csr ← read
  if csr &&& USB_INCSR_FFNOTEMPT = 0 then
    let count ← writePacket e r max
    emit (.inReady e false)
    if isLast ((← get).reqs r) count max then
      done e r 0
      pioIrqDisableIfEmpty e
      pure 1
    else pure 0
  else pure 0

/-- `write_fifo`. -/
def writeFifo (e : EpId) (r : Nat) : M Int := do
  if (← get).useDma then writeFifoDma e r else writeFifoPio e r

/-- `read_fifo` with DMA. -/
def readFifoDma (e : EpId) (r : Nat) : M Int := do
  let _ ← countDma e r
  pioIrqDisable e
  modify fun s => s.setChan .dma2 fun t => { t with ep := 0, running := false }
  let count ← read
  let _ ← readPacket r count.toNat
  done e r 0
  match ← head e with
  | none => pure 1
  | some r' =>
    kickDma e r'
    pure 1

/-- `read_fifo` without DMA. -/
def readFifoPio (e : EpId) (r : Nat) : M Int := do
  let csr ← read
  if csr &&& USB_OUTCSR_OUTPKTRDY = 0 then pure (- EINVAL)
  else
    let count ← read
    let isShort : Bool := count.toNat < ((← get).eps e).maxpacket
    let _ ← readPacket r count.toNat
    let req := (← get).reqs r
    if isShort || req.actual = req.length then
      done e r 0
      pioIrqDisableIfEmpty e
      pure 1
    else pure 0

/-- `read_fifo`. -/
def readFifo (e : EpId) (r : Nat) : M Int := do
  if (← get).useDma then readFifoDma e r else readFifoPio e r

/-! ### Endpoint 0 -/

def setEp0state (st : Ep0State) : M Unit := modify fun s => { s with ep0state := st }

/-- `write_fifo_ep0`. -/
def writeFifoEp0 (r : Nat) : M Int := do
  let max : Int := ((← get).eps 0).maxpacket
  let count ← writePacket 0 r max
  if isLast ((← get).reqs r) count max then
    done 0 r 0
    pure 1
  else pure 0

/-- The bytes of a packet that `read_fifo_ep0` stores, and the overflow it notes. -/
def storeEp0 (r : Nat) (count : BitVec 32) : M Unit := modifyReq r fun req =>
  let bufferspace := req.length - req.actual
  { req with
    actual := req.actual + if count ≤ bufferspace then count else bufferspace
    status := if count ≤ bufferspace then req.status else - EOVERFLOW }

/-- `read_fifo_ep0`. -/
def readFifoEp0 (r : Nat) : M Int := do
  let csr ← read
  if csr &&& USB_CSR0_OUTPKTRDY = 0 then pure 0
  else
    let count ← read
    storeEp0 r count
    let s ← get
    if count.toNat < (s.eps 0).maxpacket ∨ (s.reqs r).actual = (s.reqs r).length then
      done 0 r 0
      pure 1
    else pure 0

/-- `jz4740_ep0_out`. -/
def ep0Out : M Unit := do
  match ← head 0 with
  | none => pure ()
  | some r =>
    if ((← get).reqs r).length = 0 then setEp0state .waitForSetup
    else if (← readFifoEp0 r) ≠ 0 then setEp0state .waitForSetup
    else pure ()

/-- The packet in the FIFO of endpoint 0 is the last one. -/
def ep0InLast : M Unit := do
  emit (.inReady 0 true)
  setEp0state .waitForSetup

/-- The packet in the FIFO is full and ends the data: an empty one has to follow. -/
def ep0InNeedZlp : M Unit := do
  emit (.inReady 0 false)
  setEp0state .dataStateNeedZlp

/-- `jz4740_ep0_in` behind the write. -/
def ep0InReady (ret : Int) (needZlp : Bool) : M Unit := do
  if ret = 1 && !needZlp then ep0InLast
  else
    emit (.inReady 0 false)
    when needZlp ep0InNeedZlp

/-- `jz4740_ep0_in`. -/
def ep0In : M Unit := do
  match ← head 0 with
  | none => pure ()
  | some r =>
    let req := (← get).reqs r
    if req.length = 0 then ep0InLast
    else
      let ret ← writeFifoEp0 r
      ep0InReady ret ((req.length - req.actual).toNat = EP0_MAXPACKETSIZE)

/-- `jz4740_ep0_in_zlp`. -/
def ep0InZlp : M Unit := ep0InLast

/-- `jz4740_ep0_kick`. -/
def ep0Kick : M Unit := do
  let _ ← read
  if ((← get).eps 0).isIn then
    setEp0state .dataStateXmit
    ep0In
  else
    setEp0state .dataStateRecv
    ep0Out

/-! ### The calls of the gadget driver -/

/-- What `jz4740_queue` does to an idle endpoint. -/
def kickstart (e : EpId) (r : Nat) : M Bool := do
  let s ← get
  if (s.eps e).index = 0 then
    addTail e r
    ep0Kick
    pure true
  else if s.useDma then
    kickDma e r
    pure false
  else
    let csr ← read
    pioIrqEnable e
    if (s.eps e).isIn then
      if csr &&& USB_INCSR_FFNOTEMPT = 0 then return (← writeFifo e r) = 1 else pure false
    else
      if csr &&& USB_OUTCSR_OUTPKTRDY ≠ 0 then return (← readFifo e r) = 1 else pure false

/-- `jz4740_queue`. -/
def jz4740Queue (e : EpId) (b : Submission) : M Int := queueWith kickstart e b

/-- `jz4740_dequeue`. -/
def jz4740Dequeue (e : EpId) (r : Nat) : M Int := do
  if e = 0 then pure (- EINVAL)
  else if r ∈ ((← get).eps e).queue then
    done e r (- ECONNRESET)
    pure 0
  else pure (- EINVAL)

/-- `jz4740_set_halt`. -/
def jz4740SetHalt (e : EpId) (value : Bool) : M Int := do
  let s ← get
  if (s.eps e).desc.isNone && e ≠ 0 then pure (- EINVAL)
  else if (s.eps e).index ≠ 0 && (s.eps e).isIn then
    let csr ← read
    if value && (csr &&& USB_INCSR_FFNOTEMPT ≠ 0 || (s.eps e).queue ≠ []) then pure (- EAGAIN)
    else
      modifyEp e fun ep => { ep with stopped := value }
      pure 0
  else
    modifyEp e fun ep => { ep with stopped := value }
    pure 0

/-- `jz4740_ep_enable` with a matching descriptor of packet size `max`. -/
def jz4740EpEnable (e : EpId) (max : Nat) : M Int := do
  let s ← get
  if (s.eps e).desc.isSome || e = 0 then pure (- EINVAL)
  else if !s.driver || !s.speedKnown then pure (- ESHUTDOWN)
  else
    modifyEp e fun ep => { ep with stopped := false, desc := some max, maxpacket := max }
    jz4740SetHalt e false

/-- `jz4740_ep_disable`. -/
def jz4740EpDisable (e : EpId) : M Int := do
  if ((← get).eps e).desc.isNone then pure (- EINVAL)
  else
    nuke e (- ESHUTDOWN)
    modifyEp e fun ep => { ep with irq := false, desc := none, stopped := true }
    pure 0

inductive Call where
  | queue (e : EpId) (b : Submission)
  | dequeue (e : EpId) (r : Nat)
  | enable (e : EpId) (max : Nat)
  | disable (e : EpId)
  | setHalt (e : EpId) (value : Bool)
deriving DecidableEq, Repr

def Call.exec : Call → M Int
  | .queue e b => jz4740Queue e b
  | .dequeue e r => jz4740Dequeue e r
  | .enable e max => jz4740EpEnable e max
  | .disable e => jz4740EpDisable e
  | .setHalt e value => jz4740SetHalt e value

def execAll : List Call → M Unit
  | [] => pure ()
  | c :: cs => do
    let _ ← c.exec
    execAll cs

/-! ### Interrupts -/

/-- `struct usb_ctrlrequest`. -/
structure CtrlRequest where
  bRequestType : Nat
  bRequest : Nat
  wValue : Nat
  wIndex : Nat
  wLength : Nat
deriving DecidableEq, Repr

/-- A SETUP packet: the request, and the calls the `setup` callback of the gadget driver
makes before it returns `ret`. -/
structure Setup where
  ctrl : CtrlRequest
  calls : List Call
  ret : Int
deriving DecidableEq, Repr

/-- The endpoint of a `HALT` feature request that the driver handles itself. -/
def haltTarget (ctrl : CtrlRequest) : Option EpId :=
  let epNum := ctrl.wIndex % 16
  if ctrl.wValue ≠ 0 ∨ ctrl.wLength ≠ 0 ∨ epNum > 3 ∨ epNum < 1 then none
  else some (Fin.ofNat 4 epNum)

/-- The gadget driver is told about a request. -/
def gadgetSetup (setup : Setup) : M Unit := do
  if (← get).driver then
    execAll setup.calls
    when (setup.ret < 0) (setEp0state .waitForSetup)
  else pure ()

/-- `jz4740_ep0_setup`. -/
def ep0Setup (setup : Setup) : M Unit := do
  nuke 0 (- EPROTO)
  let ctrl := setup.ctrl
  modifyEp 0 fun ep => { ep with isIn := ctrl.bRequestType &&& USB_DIR_IN ≠ 0 }
  if ctrl.bRequest = USB_REQ_SET_ADDRESS ∧ ctrl.bRequestType = 0 then
    modify fun s => { s with address := ctrl.wValue }
  else if (ctrl.bRequest = USB_REQ_CLEAR_FEATURE ∨ ctrl.bRequest = USB_REQ_SET_FEATURE) ∧
      ctrl.bRequestType = USB_RECIP_ENDPOINT then
    match haltTarget ctrl with
    | none => gadgetSetup setup
    | some e =>
      let _ ← jz4740SetHalt e (ctrl.bRequest = USB_REQ_SET_FEATURE)
      pure ()
  else gadgetSetup setup

/-- The part of `jz4740_handle_ep0` behind the abort of a transfer. -/
def handleEp0Out (csr : BitVec 32) (setup : Setup) : M Unit := do
  if csr &&& USB_CSR0_OUTPKTRDY ≠ 0 then
    match (← get).ep0state with
    | .waitForSetup => ep0Setup setup
    | .dataStateRecv => ep0Out
    | _ => pure ()
  else pure ()

/-- `jz4740_handle_ep0` where no packet waits in either direction. -/
def handleEp0In : M Unit := do
  match (← get).ep0state with
  | .dataStateXmit => ep0In
  | .dataStateNeedZlp => ep0InZlp
  | _ => setEp0state .waitForSetup

/-- `jz4740_handle_ep0`. -/
def handleEp0 (setup : Setup) : M Unit := do
  let csr ← read
  if csr &&& USB_CSR0_SENTSTALL ≠ 0 then
    nuke 0 (- ECONNABORTED)
    setEp0state .waitForSetup
  else if csr &&& (USB_CSR0_INPKTRDY ||| USB_CSR0_OUTPKTRDY) = 0 then handleEp0In
  else if csr &&& USB_CSR0_SETUPEND ≠ 0 then
    nuke 0 0
    setEp0state .waitForSetup
    handleEp0Out csr setup
  else handleEp0Out csr setup

/-- `jz4740_in_epn` for an endpoint of `dev->ep`. -/
def inEp (e : EpId) : M Unit := do
  let csr ← read
  if csr &&& USB_INCSR_SENTSTALL ≠ 0 then pure ()
  else if ((← get).eps e).desc.isNone then pure ()
  else
    match ← head e with
    | none => pure ()
    | some r =>
      let _ ← writeFifo e r
      pure ()

/-- `jz4740_in_epn`; an index outside `dev->ep` is undefined and does nothing here. -/
def inEpn (epIdx : Nat) : M Unit :=
  if h : epIdx + 1 < 4 then inEp ⟨epIdx + 1, h⟩ else pure ()

/-- The loop of `jz4740_out_epn` without DMA. -/
def outLoop (e : EpId) : Nat → M Unit
  | 0 => pure ()
  | n + 1 => do
    let csr ← read
    if csr &&& (USB_OUTCSR_OUTPKTRDY ||| USB_OUTCSR_SENTSTALL) = 0 then pure ()
    else if csr &&& USB_OUTCSR_SENTSTALL ≠ 0 then outLoop e n
    else
      match ← head e with
      | none => pure ()
      | some r =>
        let _ ← readFifo e r
        outLoop e n

/-- `jz4740_out_epn` for an endpoint of `dev->ep`.  Every turn of the loop reads the
status, so the reads to come bound the turns. -/
def outEp (e : EpId) : M Unit := do
  let s ← get
  if (s.eps e).desc.isNone then pure ()
  else if s.useDma then
    match ← head e with
    | none => pure ()
    | some r =>
      let _ ← readFifo e r
      pure ()
  else outLoop e (s.reads.length + 1)

/-- `jz4740_out_epn`. -/
def outEpn (epIdx : Nat) : M Unit :=
  if h : epIdx < 4 then outEp ⟨epIdx, h⟩ else pure ()

/-- The interrupt registers as `jz4740_udc_irq` reads them. -/
structure Irq where
  reset : Bool
  ep0 : Bool
  dma1 : Bool
  dma2 : Bool
  inep1 : Bool
  inep2 : Bool
  outep1 : Bool
deriving DecidableEq, Repr

/-- `jz4740_udc_irq`. -/
def jz4740UdcIrq (irq : Irq) (setup : Setup) : M Unit := do
  when irq.reset (modify fun s => { s with speedKnown := true })
  when irq.ep0 (handleEp0 setup)
  when irq.dma1 do inEpn ((← get).chans .dma1).ep
  when irq.dma2 do outEpn ((← get).chans .dma2).ep
  when irq.inep1 (inEpn 1)
  when irq.inep2 (inEpn 2)
  when irq.outep1 (outEpn 1)

/-! ### The gadget driver comes and goes -/

/-- `usb_gadget_register_driver`. -/
def registerDriver : M Unit := do
  if (← get).driver then pure ()
  else modify fun s => { s with driver := true, speedKnown := false }

/-- `stop_activity` for one endpoint. -/
def stopEp (e : EpId) : M Unit := do
  modifyEp e fun ep => { ep with stopped := true }
  nuke e (- ESHUTDOWN)

/-- `udc_reinit`. -/
def udcReinit : M Unit := modify fun s =>
  { s with
    ep0state := .waitForSetup
    eps := fun e => { s.eps e with queue := [], desc := none, stopped := false } }

/-- `usb_gadget_unregister_driver`. -/
def unregisterDriver : M Unit := do
  modify fun s => { s with driver := false, speedKnown := false }
  stopEp 0
  stopEp 1
  stopEp 2
  stopEp 3
  udcReinit
  modify fun s =>
    { s with address := 0, chans := fun ch => { s.chans ch with ep := 0, running := false } }

/-! ### Runs -/

inductive Act where
  | call (c : Call)
  | irq (i : Irq) (setup : Setup)
  /-- The DMA engine has moved on. -/
  | engine (ch : Chan) (addr : BitVec 32)
  /-- The transfer of a channel ends after `moved` bytes and raises its interrupt. -/
  | dmaEnd (ch : Chan) (moved : BitVec 32)
  | register
  | unregister

def noSetup : Setup := ⟨⟨0, 0, 0, 0, 0⟩, [], 0⟩

def dmaIrq (ch : Chan) : Irq :=
  ⟨false, false, ch = .dma1, ch = .dma2, false, false, false⟩

/-- The end of the transfer that a channel runs. -/
def transferEnds (ch : Chan) (moved : BitVec 32) : M Unit := do
  if ((← get).chans ch).running then
    modify fun s => s.setChan ch fun t => { t with addr := t.addr + moved, running := false }
    jz4740UdcIrq (dmaIrq ch) noSetup
  else pure ()

def Act.exec : Act → M Unit
  | .call c => do
    let _ ← c.exec
    pure ()
  | .irq i setup => jz4740UdcIrq i setup
  | .engine ch addr => modify fun s => s.setChan ch fun t => { t with addr := addr }
  | .dmaEnd ch moved => transferEnds ch moved
  | .register => registerDriver
  | .unregister => unregisterDriver

/-- An action, with what the controller and the completion callbacks answer meanwhile. -/
structure Step where
  act : Act
  reads : List (BitVec 32)
  callbacks : List (List Submission)

def step (s : Dev) (a : Step) : Dev :=
  (a.act.exec { s with reads := a.reads, callbacks := a.callbacks }).2

def run (s : Dev) (l : List Step) : Dev := l.foldl step s

/-- `udc_dev` after `jz4740_udc_probe`. -/
def initDev (useDma : Bool) : Dev where
  eps
    | 0 => ⟨none, false, false, 0, EP0_MAXPACKETSIZE, [], none, false⟩
    | 1 => ⟨none, false, false, 1, 512, [], none, false⟩
    | 2 => ⟨none, false, true, 1, 512, [], none, false⟩
    | 3 => ⟨none, false, true, 2, 64, [], none, false⟩
  reqs _ := ⟨0, 0, 0, false, 0⟩
  chans _ := ⟨0, 0, 0, false⟩
  ep0state := .waitForSetup
  address := 0
  driver := false
  speedKnown := false
  useDma := useDma
  ledger := []
  wire := []
  reads := []
  callbacks := []

end Dingoo.Udc
