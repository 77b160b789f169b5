/-
The registers that `set_dma_mode` and `set_dma_addr` of `arch/mips/jz4740/dma.c` program.

The channel table is that of `Linux.Dma`; here it is joined by the source, target, request
and command registers, each indexed by the `io` field of a channel.
-/
import Dingoo.Linux.Dma

namespace Dingoo.Dma

/-- `REG_DMAC_DSAR`, `REG_DMAC_DTAR`, `REG_DMAC_DRSR` and `REG_DMAC_DCMD`. -/
structure Regs where
  dsar : Nat → BitVec 32
  dtar : Nat → BitVec 32
  drsr : Nat → BitVec 32
  dcmd : Nat → BitVec 32

/-- The channel table and the registers. -/
structure Machine where
  dma : State
  regs : Regs

/-- `DMA_MODE_MASK` -/
def dmaModeMask : BitVec 32 := 3

/-- `DMA_MODE_READ` and `DMA_MODE_WRITE`. -/
inductive Mode where
  | read
  | write
  deriving DecidableEq, Repr

def Mode.word : Mode → BitVec 32
  | .read => 0
  | .write => 1

/-- `set_dma_mode`: the table part, then the two register writes. -/
def setDmaModeRegs (dmanr : Nat) (mode : BitVec 32) (m : Machine) : Machine :=
  match (getDmaChan dmanr m.dma).1 with
  | none => { m with dma := (setDmaMode dmanr mode m.dma).2 }
  | some d =>
    let s := (setDmaMode dmanr mode m.dma).2
    let chan := s.table d
    { dma := s
      regs :=
        { m.regs with
          dcmd := Function.update m.regs.dcmd chan.io (chan.mode &&& ~~~dmaModeMask)
          drsr := Function.update m.regs.drsr chan.io chan.source } }

/-- `set_dma_addr` -/
def setDmaAddr (dmanr : Nat) (phyaddr : BitVec 32) (m : Machine) : Machine :=
  match getDmaChan dmanr m.dma with
  | (none, s) => { m with dma := s }
  | (some d, s) =>
    let chan := s.table d
    let mode := chan.mode &&& dmaModeMask
    if mode = Mode.read.word then
      { dma := s
        regs :=
          { m.regs with
            dsar := Function.update m.regs.dsar chan.io chan.fifoAddr
            dtar := Function.update m.regs.dtar chan.io phyaddr } }
    else if mode = Mode.write.word then
      { dma := s
        regs :=
          { m.regs with
            dsar := Function.update m.regs.dsar chan.io phyaddr
            dtar := Function.update m.regs.dtar chan.io chan.fifoAddr } }
    else { m with dma := s }

/-- A sequence of `set_dma_mode` calls on a channel. -/
def setModes (dmanr : Nat) (m : Machine) (modes : List Mode) : Machine :=
  modes.foldl (fun m mode => setDmaModeRegs dmanr mode.word m) m

end Dingoo.Dma
