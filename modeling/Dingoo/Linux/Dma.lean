/-
The DMA channels of the JZ4740 and who owns them (`arch/mips/jz4740/dma.c` and
`get_dma_chan` of `asm-mips/mach-jz4740/dma.h`).

`jz_dma_table` is read and written through an index that is only partly checked, so
the table is a function on all indices: the first six cells are the table, the
others are whatever memory lies behind it.  Every index used is logged, and so is
every call of `request_irq` and `free_irq`.

`request_irq` returns zero or a negative error code; its outcome is an argument of
the call that makes it.  The registers of the DMA controller are not part of the
state, nor is the `cntl` field of a channel, which nothing uses.
-/
import Mathlib.Data.BitVec

namespace Dingoo.Dma

/-- `struct jz_dma_chan`; pointers are numbers, `NULL` is 0. -/
structure Chan where
  devId : Int
  io : Nat
  devStr : Nat
  irq : Int
  irqDev : Nat
  fifoAddr : BitVec 32
  mode : BitVec 32
  source : BitVec 32
deriving DecidableEq, Repr

/-- A call into the interrupt layer; a registration with the error code it returned. -/
inductive IrqCall where
  | requestIrq (irq : Int) (dev : Nat) (errno : Nat)
  | freeIrq (irq : Int) (dev : Nat)
deriving DecidableEq, Repr

structure State where
  /-- `jz_dma_table`, and the memory behind it -/
  table : Nat → Chan
  /-- log: the indices used -/
  accesses : List Nat
  /-- log: the calls into the interrupt layer -/
  irqCalls : List IrqCall

/-- `MAX_DMA_NUM` -/
def maxDmaNum : Nat := 6

/-- `IRQ_DMA_0` -/
def irqDma0 : Nat := 32

/-- `DMA_ID_RAW_SET` -/
def dmaIdRawSet : Int := 10

/-- `DMA_ID_MAX` -/
def dmaIdMax : Int := 11

def EINVAL : Int := 22

def ENODEV : Int := 19

/-- `dma_dev_table`: fifo address, mode and request source of each device id. -/
def dmaDevTable : List (BitVec 32 × BitVec 32 × BitVec 32) :=
  [(0x10030000, 0x801101, 20), -- UART0_TX
   (0x10030000, 0x404100, 21), -- UART0_RX
   (0x10043000, 0x800001, 22), -- SSI_TX
   (0x10043000, 0x400000, 23), -- SSI_RX
   (0x10020034, 0x800001, 24), -- AIC_TX
   (0x10020034, 0x400000, 25), -- AIC_RX
   (0x1002103c, 0x800001, 26), -- MSC_TX
   (0x10021038, 0x400000, 27), -- MSC_RX
   (0, 2, 28), -- TCU_OVERFLOW
   (0, 2, 8), -- AUTO
   (0, 0, 0)] -- RAW_SET

/-- `DMAC_DCMD_SAI` -/
def dcmdSai : BitVec 32 := 1 <<< 23

/-- `DMAC_DCMD_DAI` -/
def dcmdDai : BitVec 32 := 1 <<< 22

/-! ### Access to the table -/

abbrev M := StateM State

def readChan (i : Nat) : M Chan := fun s => (s.table i, { s with accesses := s.accesses ++ [i] })

def modifyChan (i : Nat) (f : Chan → Chan) : M Unit := fun s =>
  ((), { s with
    table := Function.update s.table i (f (s.table i))
    accesses := s.accesses ++ [i] })

def logIrq (c : IrqCall) : M Unit := fun s => ((), { s with irqCalls := s.irqCalls ++ [c] })

/-- `get_dma_chan`; a channel is its index. -/
def getDmaChan (dmanr : Nat) : M (Option Nat) := do
  if dmanr > maxDmaNum then return none
  if (← readChan dmanr).devId < 0 then return none
  return some dmanr

/-- The search for a channel with a negative `dev_id`, over `n` channels from `i` on. -/
def findFree : Nat → Nat → M Nat
  | 0, i => return i
  | n + 1, i => do
      if (← readChan i).devId < 0 then return i
      findFree n (i + 1)

/-- `disable_dma`, as far as the table is concerned. -/
def disableDma (dmanr : Nat) : M Unit := do
  let _ ← getDmaChan dmanr

/-- `set_dma_mode`, as far as the table is concerned. -/
def setDmaMode (dmanr : Nat) (mode : BitVec 32) : M Unit := do
  match ← getDmaChan dmanr with
  | none => return ()
  | some d =>
    modifyChan d fun c => { c with mode := c.mode ||| (mode &&& ~~~(dcmdSai ||| dcmdDai)) }
    if mode &&& 3 = 0 then
      modifyChan d fun c => { c with mode := (c.mode ||| dcmdDai) &&& ~~~dcmdSai }
    else if mode &&& 3 = 1 then
      modifyChan d fun c => { c with mode := (c.mode ||| dcmdSai) &&& ~~~dcmdDai }

/-! ### The calls -/

/-- `jz_request_dma`; `handler` says whether there is one, `errno` what `request_irq` returns. -/
def jzRequestDma (devId : Int) (devStr : Nat) (handler : Bool) (irqDevId errno : Nat) : M Int := do
  if devId < 0 ∨ devId ≥ dmaIdMax then return -EINVAL
  let i ← findFree maxDmaNum 0
  if i = maxDmaNum then return -ENODEV
  if handler then
    modifyChan i fun c => { c with irq := irqDma0 + i, irqDev := irqDevId }
    logIrq (.requestIrq (irqDma0 + i) irqDevId errno)
    if errno ≠ 0 then
      modifyChan i fun c => { c with irq := -1, irqDev := 0 }
      return -errno
  else
    modifyChan i fun c => { c with irq := -1, irqDev := 0 }
  let dev := dmaDevTable.getD devId.toNat (0, 0, 0)
  modifyChan i fun c =>
    { c with
      io := i
      devId := devId
      devStr := devStr
      fifoAddr := dev.1
      mode := dev.2.1
      source := dev.2.2 }
  return i

/-- `jz_free_dma` -/
def jzFreeDma (dmanr : Nat) : M Unit := do
  match ← getDmaChan dmanr with
  | none => return ()
  | some d =>
    disableDma d
    let chan ← readChan d
    if chan.irq ≠ 0 then logIrq (.freeIrq chan.irq chan.irqDev)
    modifyChan d fun c => { c with irq := -1, irqDev := 0, devId := -1 }

/-- `jz_set_dma_mode`; its parameter `mode` is not used. -/
def jzSetDmaMode (dmanr : Nat) (dmaMode dmaSource fifoAddr : BitVec 32) : M Int := do
  if dmanr > maxDmaNum then return -ENODEV
  let i ← findFree maxDmaNum 0
  if i = maxDmaNum then return -ENODEV
  if (← readChan dmanr).devId > 0 then return -ENODEV
  if i ≠ dmanr then
    let free ← readChan i
    modifyChan dmanr fun c =>
      { c with irq := free.irq, irqDev := free.irqDev, devStr := free.devStr }
    modifyChan i fun c => { c with irq := 0, irqDev := 0, devId := -1 }
  modifyChan dmanr fun c =>
    { c with
      devId := dmaIdRawSet
      io := dmanr
      fifoAddr := fifoAddr
      mode := dmaMode
      source := dmaSource }
  setDmaMode dmanr dmaMode
  return dmanr

/-! ### Runs -/

/-- A call with its arguments. -/
inductive Call where
  | request (devId : Int) (devStr : Nat) (handler : Bool) (irqDevId errno : Nat)
  | free (dmanr : Nat)
  | setMode (dmanr : Nat) (dmaMode dmaSource fifoAddr : BitVec 32)
deriving DecidableEq, Repr

/-- What a call returns; `jz_free_dma` returns nothing. -/
def Call.exec : Call → M (Option Int)
  | .request devId devStr handler irqDevId errno =>
    some <$> jzRequestDma devId devStr handler irqDevId errno
  | .free dmanr => do
      jzFreeDma dmanr
      return none
  | .setMode dmanr dmaMode dmaSource fifoAddr =>
    some <$> jzSetDmaMode dmanr dmaMode dmaSource fifoAddr

def step (s : State) (c : Call) : State := (c.exec s).2

/-- The value a call made in this state returns. -/
def result (s : State) (c : Call) : Option Int := (c.exec s).1

def run (s : State) (calls : List Call) : State := calls.foldl step s

/-- At start every channel is free and the rest of the table zero; what lies behind it is
anything. -/
def initState (behind : Nat → Chan) : State where
  table := fun i => if i < maxDmaNum then ⟨-1, 0, 0, 0, 0, 0, 0, 0⟩ else behind i
  accesses := []
  irqCalls := []

end Dingoo.Dma
