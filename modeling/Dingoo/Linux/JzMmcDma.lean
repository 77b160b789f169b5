/-
The MMC host driver with its buffers, `drivers/mmc/host/jz_mmc.c` as built with `USE_DMA` and
`CONFIG_JZ_MMC_BUS_1`.

To the request machine this adds what it leaves out: the mapping of a scatter list by
`dma_map_sg` and its unmapping, with the fields of the host that they use, and the argument
of each command beside what is sent.  The host has two places for the length and the
direction of a mapping; `dma` is written when a list is mapped, and `dma_len` and
`dma_dir`, which nothing writes, are used to unmap it.

The number of entries of a request's list is an argument; `dma_map_sg` returns it.  The DMA
channels are left out.
-/
import Dingoo.Linux.JzMmc

namespace Dingoo.MmcDma

open Dingoo.MmcHost

inductive TraceEvent where
  /-- what the request machine records -/
  | host (e : Event)
  /-- a command is started: its opcode and argument, and what `REG_MSC_ARG` holds -/
  | start (p : CmdPtr) (opcode arg sent : BitVec 32)
  /-- `dma_map_sg` and `dma_unmap_sg` for a request: entries and direction -/
  | map (mrq entries dir : Nat)
  | unmap (mrq entries dir : Nat)
deriving DecidableEq

structure Traced where
  host : State
  /-- `host->dma.len` and `host->dma.dir` -/
  dmaLen : Nat
  dmaDir : Nat
  /-- `host->dma_len` and `host->dma_dir` -/
  hostDmaLen : Nat
  hostDmaDir : Nat
  trace : List TraceEvent

abbrev T := StateM Traced

def DMA_TO_DEVICE : Nat := 1
def DMA_FROM_DEVICE : Nat := 2

def mmcDataRead : BitVec 32 := 1 <<< 9

/-- A part of the request machine; what it records goes to the trace. -/
def lift {α : Type} (x : M α) : T α := fun t =>
  ((x t.host).1,
    { t with
      host := (x t.host).2
      trace := t.trace ++ ((x t.host).2.log.drop t.host.log.length).map .host })

def hostState : T State := fun t => (t.host, t)

def note (e : TraceEvent) : T Unit := modify fun t => { t with trace := t.trace ++ [e] }

/-- The direction of a transfer. -/
def dirOf (flags : BitVec 32) : Nat :=
  if flags &&& mmcDataRead ≠ 0 then DMA_FROM_DEVICE else DMA_TO_DEVICE

/-- What `jz_mmc_rx_setup_data` and `jz_mmc_tx_setup_data` do to map the list of request `i`. -/
def setupData (sgLen : Nat → Nat) (i : Nat) (flags : BitVec 32) : T Unit := do
  modify fun t => { t with dmaDir := dirOf flags }
  modify fun t => { t with dmaLen := sgLen i, trace := t.trace ++ [.map i (sgLen i) t.dmaDir] }

def jzMmcRxSetupData (sgLen : Nat → Nat) (i : Nat) (d : Data) : T Unit := do
  lift (modify fun s => s.record (.rxSetup i))
  setupData sgLen i d.flags

/-- The data that `host->data` points to. -/
def hostData (s : State) : Option (Nat × Data) :=
  s.data.bind fun i => (s.reqs[i]?.bind Request.data).map fun d => (i, d)

/-- A null `host->data` is followed, so that nothing is mapped. -/
def jzMmcTxSetupData (sgLen : Nat → Nat) : T Unit := do
  lift (modify fun s => s.record (.txSetup s.data))
  let s ← hostState
  match hostData s with
  | none => return ()
  | some (i, d) => setupData sgLen i d.flags

/-- The driver with its buffers. -/
def ops (sgLen : Nat → Nat) : Ops T where
  lift := lift
  state := hostState
  rxSetupData := jzMmcRxSetupData sgLen
  txSetupData := jzMmcTxSetupData sgLen
  starts p c := do note (.start p c.opcode c.arg (← hostState).regArg)
  unmaps i := modify fun t => { t with trace := t.trace ++ [.unmap i t.hostDmaLen t.hostDmaDir] }

/-! ### Runs -/

def step (sgLen : Nat → Nat) (t : Traced) : Act → Traced
  | .request r env irqs => ((ops sgLen).jzMmcRequest r env irqs t).2
  | .irq e => ((ops sgLen).raise e t).2

def run (sgLen : Nat → Nat) (t : Traced) (acts : List Act) : Traced := acts.foldl (step sgLen) t

/-- The host that `mmc_alloc_host` and `jz_mmc_probe` leave, whatever the argument register
holds: the fields of the host are zero. -/
def initTraced (regArg : BitVec 32) : Traced where
  host := { initState with regArg := regArg }
  dmaLen := 0
  dmaDir := 0
  hostDmaLen := 0
  hostDmaDir := 0
  trace := []

end Dingoo.MmcDma
