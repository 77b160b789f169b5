/-
`sdram_init` of `hwinit/board.c`; the copy in `u-boot-1.1.6/nand_spl/board/a320/jz4740.c` is
the same text with the same configuration.

The timings of the SDRAM are given in nanoseconds.  They are divided by the clock period,
rounded down to whole nanoseconds, and packed into the fields of DMCR; the layout of DMCR
is the one the kernel's driver decodes.  The function is a sequence of register writes.
-/
import Dingoo.Linux.Cpufreq

namespace Dingoo.Sdram

open Cpufreq (Timing u32 divTable)

/-- `SDRAM_TRAS`, `SDRAM_RCD`, `SDRAM_TPC`, `SDRAM_TRWL` and `SDRAM_TREF`: constants of type
`int`, in nanoseconds. -/
structure Params where
  tras : Nat
  rcd : Nat
  tpc : Nat
  trwl : Nat
  tref : Nat
  int_range : tras < 2 ^ 31 ∧ rcd < 2 ^ 31 ∧ tpc < 2 ^ 31 ∧ trwl < 2 ^ 31 ∧ tref < 2 ^ 31

/-- The values of `config.h`. -/
def config : Params where
  tras := 45
  rcd := 20
  tpc := 20
  trwl := 7
  tref := 15625
  int_range := by decide

/-- A register write; `sdmr` is the byte write that passes the mode in its address. -/
inductive Write where
  | bcr (v : BitVec 32)
  | rtcsr (v : BitVec 32)
  | dmcr (v : BitVec 32)
  | rtcor (v : Nat)
  | rtcnt (v : Nat)
  | sdmr (mode : BitVec 32)
  deriving DecidableEq, Repr

def emcDmcrRfsh : BitVec 32 := 1#32 <<< 24
def emcDmcrMrset : BitVec 32 := 1#32 <<< 23

/-- `dmcr0` and the basic `dmcr`: the geometry of the chip, `EMC_DMCR_EPIN` and CAS latency 2. -/
def geometry (row col bank4 bw16 : Nat) : BitVec 32 :=
  (BitVec.ofNat 32 (row - 11) <<< 20) ||| (BitVec.ofNat 32 (col - 8) <<< 26)
    ||| (BitVec.ofNat 32 bank4 <<< 19) ||| (BitVec.ofNat 32 bw16 <<< 31)
    ||| (1#32 <<< 17) ||| (1#32 <<< 0)

/-- Upper limit of a `tmp`. -/
def cap (hi tmp : Nat) : Nat := if tmp > hi then hi else tmp

/-- The field value of each timing, for a period of `ns` whole nanoseconds. -/
def field (p : Params) (ns : Nat) : Timing → Nat
  | .tras =>
    let tmp := p.tras / ns
    let tmp := if tmp < 4 then 4 else tmp
    cap 11 tmp - 4
  | .rcd => cap 3 (p.rcd / ns)
  | .tpc => cap 7 (p.tpc / ns)
  | .trwl => cap 3 (p.trwl / ns)
  | .trc => (cap 14 (u32 (p.tras + p.tpc) / ns) + 1) >>> 1

/-- The basic DMCR value with the timings. -/
def dmcrValue (p : Params) (ns : Nat) : BitVec 32 :=
  let put (t : Timing) : BitVec 32 := BitVec.ofNat 32 (field p ns t) <<< t.bit
  geometry 12 9 1 0 ||| put .tras ||| put .rcd ||| put .tpc ||| put .trwl ||| put .trc

/-- The refresh constant. -/
def rtcorValue (p : Params) (ns : Nat) : Nat :=
  let tmp := p.tref / ns
  let tmp := tmp / 64 + 1
  cap 0xff tmp

/-- `mem_clk`, from `CFG_CPU_SPEED` and the divisor fields of CPCCR. -/
def memClk (cpuClk : Nat) (cpccr : BitVec 32) : Option Nat := do
  let cdiv ← divTable[(cpccr &&& 0xf).toNat]?
  let mdiv ← divTable[((cpccr >>> 12) &&& 0xf).toNat]?
  return u32 (cpuClk * cdiv) / mdiv

/-- `EMC_SDMR_BT_SEQ | EMC_SDMR_OM_NORMAL | EMC_SDMR_BL_4 | EMC_SDMR_CAS_2`. -/
def sdmode : BitVec 32 := (0#32 <<< 3) ||| (0#32 <<< 7) ||| (2#32 <<< 0) ||| (2#32 <<< 4)

/-- `sdram_init` -/
def sdramInit (p : Params) (cpuClk : Nat) (cpccr : BitVec 32) : Option (List Write) := do
  let memClk ← memClk cpuClk cpccr
  let dmcr0 := geometry 11 8 0 0
  let ns := 1000000000 / memClk
  let dmcr := dmcrValue p ns
  return [
    .bcr 0,
    .rtcsr 0,
    -- Stage 1.  Precharge all banks
    .dmcr dmcr,
    .sdmr sdmode,
    -- Stage 2.  Enable auto-refresh
    .dmcr (dmcr ||| emcDmcrRfsh),
    .rtcor (rtcorValue p ns),
    .rtcnt 0,
    .rtcsr 3,
    -- Stage 3.  Mode register set
    .dmcr (dmcr0 ||| emcDmcrRfsh ||| emcDmcrMrset),
    .sdmr sdmode,
    .dmcr (dmcr ||| emcDmcrRfsh ||| emcDmcrMrset)]

/-- The value a sequence of writes leaves in DMCR. -/
def lastDmcr (ws : List Write) : Option (BitVec 32) :=
  (ws.filterMap fun | .dmcr v => some v | _ => none).getLast?

/-- The value a sequence of writes leaves in RTCOR. -/
def lastRtcor (ws : List Write) : Option Nat :=
  (ws.filterMap fun | .rtcor v => some v | _ => none).getLast?

end Dingoo.Sdram
