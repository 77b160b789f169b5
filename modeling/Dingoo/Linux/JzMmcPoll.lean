/-
The status reads of the MMC host driver (`drivers/mmc/host/jz_mmc.c`).

The model of the requests takes the status a command ends with as given.  Here it
comes from the reads of `REG_MSC_STAT` that `jz_mmc_start_cmd` makes: those of its
polling loop, which ends with the response or at its limit, and one more after it.

After a stop command a second loop polls `REG_MSC_IREG`.  It reads no status and only
takes time, so it is not part of the state.
-/
import Dingoo.Linux.JzMmc

namespace Dingoo.MmcHost

def statEndCmdRes : BitVec 32 := 1 <<< 11

/-- What the controller shows while a command runs, with the status read by read. -/
structure Signals where
  slotEnable : Bool
  stat : Nat → BitVec 32
  res : Nat → BitVec 32

/-- The `timeout` of `jz_mmc_start_cmd`. -/
def pollTimeout : Nat := 0x3fffff

/-- `while (timeout-- && !(REG_MSC_STAT & MSC_STAT_END_CMD_RES))` after `n` reads: the number
of reads made when it ends. -/
def pollEndCmdRes (stat : Nat → BitVec 32) : Nat → Nat → Nat
  | 0, n => n
  | timeout + 1, n =>
    if stat n &&& statEndCmdRes ≠ 0 then n + 1 else pollEndCmdRes stat timeout (n + 1)

/-- What a command ends with: the status is the first one read after the loop. -/
def Signals.env (sig : Signals) : CmdEnv :=
  ⟨sig.slotEnable, sig.stat (pollEndCmdRes sig.stat pollTimeout 0), sig.res⟩

/-- What the controller shows to the interrupt handler. -/
structure IrqSignals where
  ireg : BitVec 8
  stat : BitVec 32
  dataStat : BitVec 32
  stop : Signals

def IrqSignals.env (e : IrqSignals) : IrqEnv := ⟨e.ireg, e.stat, e.dataStat, e.stop.env⟩

inductive SignalAct where
  | request (r : Request) (sig : Signals) (irqs : Nat → Option IrqSignals)
  | irq (e : IrqSignals)

def SignalAct.act : SignalAct → Act
  | .request r sig irqs => .request r sig.env fun n => (irqs n).map IrqSignals.env
  | .irq e => .irq e.env

end Dingoo.MmcHost
